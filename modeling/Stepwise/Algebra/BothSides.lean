import Stepwise.Deduction

/-!
Doing the same to both sides of an equation. The operation is given as an equation that defines a
function of one argument; the function is applied to both sides and then unfolded on each.
-/

namespace Stepwise.Expr

def functionSymbol : String := "_"

def applyToBoth : Expr :=
  implication (equation (var "A") (var "B"))
    (equation (call functionSymbol [var "A"]) (call functionSymbol [var "B"]))

/-- The first of `name`, `name_`, `name__`, … that is not taken, if it is among the first
`fuel + 1`. -/
def freshName (taken : List String) : Nat → String → String
  | 0, name => name
  | fuel + 1, name => if name ∈ taken then freshName taken fuel (name ++ "_") else name

def freshVariable (e : Expr) : String := freshName e.variableNames e.variableNames.length "X"

def operationBy (symbol : String) (value : Expr) : Attempt (Expr × String) := do
  let argument := var value.freshVariable
  let body ← build .binary symbol [argument, value]
  return (equation (call functionSymbol [argument]) body,
    "Apply " ++ symbol ++ value.display ++ " to both side")

def definedFunction? (fn : Expr) : Option String :=
  match fn.equationSides? with
  | some (node .call symbol [_], _) => some symbol
  | _ => none

def onBothSides (e fn : Expr) : Attempt Expr :=
  if e.isEquation then
    match fn.definedFunction? with
    | none => Attempt.stepFault (.notAFunction fn)
    | some symbol => do
        let applied ← e.infer (renameSymbol functionSymbol symbol applyToBoth)
        let left ← applied.byEquationAt fn (.ofPath [0])
        left.byEquationAt fn (.ofPath [1])
  else Attempt.stepFault (.notAnEquation e)

def commutativeSymbols : List String := ["+", "*"]

/-- The operator that removes an operand from a side. Every operand of a sum or a product can be
removed, and the right operand of a difference or a quotient. -/
def inverseOperator? (side : Expr) (operand : Int) : Option String :=
  if side.kind = .binary ∨ side.kind = .train then
    if side.symbol = "+" then some "-"
    else if side.symbol = "*" then some "/"
    else if side.kind = .binary ∧ operand = 1 then
      if side.symbol = "-" then some "+" else if side.symbol = "/" then some "*" else none
    else none
  else none

end Stepwise.Expr
