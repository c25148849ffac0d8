import Stepwise.NormalForm
import Stepwise.Parse.Basic
import Stepwise.Parse.Token

/-!
The infix notation. Binary operators bind to the left with the strength given by `precedence`,
unary operators bind tightest, and an operator followed by an ellipsis makes a variadic train of
the expression on its left. Chains of associative operators end up as trains.
-/

namespace Stepwise.Parse

/-- The binding strength of an infix operator; an unknown one binds like addition. -/
def precedence (symbol : String) : Nat :=
  if symbol = "=>" then 1
  else if symbol = "=" then 2
  else if symbol = "+" ∨ symbol = "-" then 3
  else if symbol = "*" ∨ symbol = "/" then 4
  else if symbol = "^" then 5
  else 3

def isInfixOperator (ctx : Context) (token : String) : Bool :=
  token ∈ statementSymbols || token ∈ ctx.binaryOps || token ∈ ctx.assocOps

def infixNode (ctx : Context) (symbol : String) (left right : Expr) : Expr :=
  if symbol ∈ statementSymbols then .node .statement symbol [left, right]
  else if symbol ∈ ctx.binaryOps then .binary symbol left right
  else .train symbol [left, right]

/-- An unary operator in front of its operand; words are read as calls instead. -/
def isUnaryOperator (ctx : Context) (token : String) : Bool :=
  token ∈ ctx.unaryOps && !Token.isWord token

mutual

def operation (ctx : Context) (strength : Nat) (tokens : List String) :
    Attempt (Reading Expr tokens) :=
  match operand ctx tokens with
  | .error fault => .error fault
  | .ok first =>
      have := first.shorter
      match operators ctx strength first.value first.rest with
      | .error fault => .error fault
      | .ok all => .ok ⟨all.value, all.rest, Nat.lt_of_le_of_lt all.bounded first.shorter⟩
termination_by (tokens.length, 2)

def operators (ctx : Context) (strength : Nat) (left : Expr) (tokens : List String) :
    Attempt (Continuation Expr tokens) :=
  match tokens with
  | [] => .ok ⟨left, [], Nat.le_refl _⟩
  | symbol :: rest =>
      if isInfixOperator ctx symbol ∧ strength ≤ precedence symbol then
        if rest.head? = some Expr.ellipsis then
          if symbol ∈ ctx.assocOps then
            match operators ctx strength (Expr.variadicTrain symbol left) rest.tail with
            | .error fault => .error fault
            | .ok all =>
                .ok ⟨all.value, all.rest,
                  Nat.le_of_lt (Nat.lt_of_le_of_lt all.bounded (length_tail_lt_cons symbol rest))⟩
          else .error (.parse (.notAssociative symbol))
        else
          match operation ctx (precedence symbol + 1) rest with
          | .error fault => .error fault
          | .ok right =>
              have := right.shorter
              match operators ctx strength (infixNode ctx symbol left right.value) right.rest with
              | .error fault => .error fault
              | .ok all =>
                  .ok ⟨all.value, all.rest,
                    Nat.le_succ_of_le (Nat.le_of_lt (Nat.lt_of_le_of_lt all.bounded this))⟩
      else .ok ⟨left, symbol :: rest, Nat.le_refl _⟩
termination_by (tokens.length, 0)

def operand (ctx : Context) (tokens : List String) : Attempt (Reading Expr tokens) :=
  match tokens with
  | [] => .error (.parse .unexpectedEnd)
  | token :: rest =>
      if isUnaryOperator ctx token then
        match operand ctx rest with
        | .error fault => .error fault
        | .ok inner => .ok ⟨.unary token inner.value, inner.rest, Nat.lt_succ_of_lt inner.shorter⟩
      else if token = "(" then
        match operation ctx 0 rest with
        | .error fault => .error fault
        | .ok inner =>
            match eq : inner.rest with
            | [] => .error (.parse .unexpectedEnd)
            | found :: after =>
                if found = ")" then
                  .ok ⟨inner.value, after,
                    Nat.lt_succ_of_lt (Nat.lt_of_succ_lt (inner.length_lt_of_rest_eq_cons eq))⟩
                else .error (.parse (.expected ")" found))
      else if Token.isWord token then
        if rest.head? = some "(" then
          match arguments ctx rest.tail with
          | .error fault => .error fault
          | .ok args =>
              match application ctx token args.value with
              | .error fault => .error fault
              | .ok applied =>
                  .ok ⟨applied, args.rest,
                    Nat.lt_trans args.shorter (length_tail_lt_cons token rest)⟩
        else .ok ⟨leaf ctx token, rest, Nat.lt_succ_self _⟩
      else .error (.parse (.unexpectedToken token))
termination_by (tokens.length, 1)

def arguments (ctx : Context) (tokens : List String) : Attempt (Reading (List Expr) tokens) :=
  match tokens with
  | ")" :: rest => .ok ⟨[], rest, Nat.lt_succ_self _⟩
  | tokens => argumentList ctx tokens
termination_by (tokens.length, 4)

def argumentList (ctx : Context) (tokens : List String) : Attempt (Reading (List Expr) tokens) :=
  match operation ctx 0 tokens with
  | .error fault => .error fault
  | .ok first =>
      match eq : first.rest with
      | [] => .error (.parse .unexpectedEnd)
      | found :: after =>
          have shorter : after.length < tokens.length :=
            Nat.lt_of_succ_lt (first.length_lt_of_rest_eq_cons eq)
          if found = "," then
            match argumentList ctx after with
            | .error fault => .error fault
            | .ok more =>
                .ok ⟨first.value :: more.value, more.rest, Nat.lt_trans more.shorter shorter⟩
          else if found = ")" then .ok ⟨[first.value], after, shorter⟩
          else .error (.parse (.expected ")" found))
termination_by (tokens.length, 3)

end

def tokens (ctx : Context) (all : List String) : Attempt Expr :=
  if all = [] then .error (.parse .empty)
  else
    match operation ctx 0 all with
    | .error fault => .error fault
    | .ok reading =>
        match reading.rest with
        | [] => .ok reading.value
        | token :: _ => .error (.parse (.unexpectedToken token))

def infixed (ctx : Context) (text : String) : Attempt Expr :=
  match tokens ctx (Token.scan text) with
  | .error fault => .error fault
  | .ok e => .ok ((e.flatten ctx.assocOps).shorten ctx.binaryOps)

end Stepwise.Parse
