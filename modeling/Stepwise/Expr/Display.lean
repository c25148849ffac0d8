import Stepwise.Expr.Basic
import Stepwise.Text.Basic
import Stepwise.Text.Quoted

/-!
The two written forms of an expression. The infix form writes a variadic train as its first two
copies followed by an ellipsis, the variables of copy `i` being marked `_i`; nested trains add
their marks after the outer ones. The applied form writes every operator before its operands.
-/

namespace Stepwise.Expr

open Text (joined)

def enclosed (parentheses : Bool) (text : String) : String :=
  if parentheses then "(" ++ text ++ ")" else text

mutual

def infixMarked (parentheses : Bool) (mark : String) : Expr → String
  | node .const symbol _ => symbol
  | node .var symbol _ => symbol ++ mark
  | node .call symbol children =>
      symbol ++ "(" ++ joined ", " (infixEach parentheses mark children) ++ ")"
  | node .variadic _ children =>
      ellipsis ++ "(" ++ joined "" (infixEach parentheses mark children) ++ ")"
  | node .unary symbol children =>
      enclosed parentheses (symbol ++ joined "" (infixEach parentheses mark children))
  | node .train symbol [node .variadic _ [template]] =>
      enclosed parentheses (joined (" " ++ symbol ++ " ")
        [infixMarked parentheses (mark ++ "_1") template,
          infixMarked parentheses (mark ++ "_2") template, ellipsis])
  | node _ symbol children =>
      enclosed parentheses
        (joined (" " ++ symbol ++ " ") (infixEach parentheses mark children))

def infixEach (parentheses : Bool) (mark : String) : List Expr → List String
  | [] => []
  | child :: rest => infixMarked parentheses mark child :: infixEach parentheses mark rest

end

/-- The infix form; with parentheses every application is wrapped. -/
def toInfix (parentheses : Bool) (e : Expr) : String := e.infixMarked parentheses ""

def display (e : Expr) : String := e.toInfix true

mutual

def applied : Expr → String
  | node .const symbol _ => symbol
  | node .var symbol _ => symbol
  | node _ symbol children => symbol ++ "(" ++ joined "," (appliedEach children) ++ ")"

def appliedEach : List Expr → List String
  | [] => []
  | child :: rest => applied child :: appliedEach rest

end

def debugText (e : Expr) : String := "Expression(" ++ Text.quoted e.applied ++ ")"

end Stepwise.Expr
