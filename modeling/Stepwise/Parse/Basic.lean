import Stepwise.Context
import Stepwise.Expr.Position

/-!
What a reader returns: a value and the rest of its input, with the fact that bounds the rest; and
the kind of node that a symbol stands for, alone or applied to operands.
-/

namespace Stepwise.Parse

variable {τ : Type}

/-- A value read from the beginning of `input`, which is longer than the rest. -/
structure Reading (α : Type) (input : List τ) where
  value : α
  rest : List τ
  shorter : rest.length < input.length

/-- A value together with a rest that is no longer than `input`. -/
structure Continuation (α : Type) (input : List τ) where
  value : α
  rest : List τ
  bounded : rest.length ≤ input.length

theorem length_tail_lt_cons (first : τ) (rest : List τ) :
    rest.tail.length < (first :: rest).length := by
  rw [List.length_tail, List.length_cons]
  omega

theorem Reading.length_lt_of_rest_eq_cons {α : Type} {input after : List τ} {found : τ}
    (reading : Reading α input) (eq : reading.rest = found :: after) :
    after.length + 1 < input.length := by
  have shorter := reading.shorter
  rw [eq] at shorter
  exact shorter

def statementSymbols : List String := ["=", "=>"]

def leaf (ctx : Context) (symbol : String) : Expr :=
  if ctx.isConstant symbol then .const symbol else .var symbol

def operatorKind (ctx : Context) (symbol : String) (count : Nat) : Kind :=
  if count = 1 ∧ symbol ∈ ctx.unaryOps then .unary
  else if count = 2 ∧ symbol ∈ statementSymbols then .statement
  else if count = 2 ∧ symbol ∈ ctx.binaryOps then .binary
  else if 2 ≤ count ∧ symbol ∈ ctx.assocOps then .train
  else .call

def application (ctx : Context) (symbol : String) (operands : List Expr) : Attempt Expr :=
  if symbol = Expr.ellipsis then
    if operands.length = 1 then Expr.build .variadic symbol operands
    else .error (.parse .markerArity)
  else if operands.any Expr.isMarker then
    if operands.length = 1 then
      if symbol ∈ ctx.assocOps then Expr.build .train symbol operands
      else .error (.parse (.markerUnder symbol))
    else .error (.parse (.markerNotAlone symbol))
  else Expr.build (operatorKind ctx symbol operands.length) symbol operands

end Stepwise.Parse
