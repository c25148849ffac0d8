import Stepwise.Arithmetic
import Stepwise.Deduction

/-!
Calculation as a deduction step: a numeric operation is replaced by its value, by way of the
equation between the two. In a fraction a factor of the numerator is cancelled against one of the
denominator: integers are divided by their greatest common divisor; other numbers leave their
quotient above and 1 below.
-/

namespace Stepwise.Expr

def guarded {α : Type} : Except OverflowFault α → Attempt α
  | .ok value => .ok value
  | .error cause => .error (.overflow cause)

def calculation (e : Expr) (address : Address) : Attempt (Expr × String) := do
  let target ← e.resolve address
  if target.containsVariable then Attempt.stepFault (.containsVariable target)
  else if ← guarded target.isCalculable then
    match ← guarded target.value with
    | some value =>
        return (equation target (ofNumber value),
          "Calculate " ++ target.toInfix false ++ " = " ++ value.text)
    | none => Attempt.stepFault (.notNumeric target)
  else Attempt.stepFault (.notNumeric target)

def calculateAt (e : Expr) (address : Address) : Attempt (Expr × String) := do
  let (eq, name) ← e.calculation address
  let result ← e.byEquationAt eq address
  return (result, name)

def isFraction (e : Expr) : Bool := e.kind = .binary && e.symbol = "/"

def asTrain (symbol : String) (e : Expr) : Expr :=
  if e.symbol = symbol && (e.kind = .binary || e.kind = .train) then train symbol e.children
  else train symbol [e]

def factored (e : Expr) : Attempt Expr :=
  match e with
  | node .binary "/" [numerator, denominator] =>
      .ok (binary "/" (asTrain "*" numerator) (asTrain "*" denominator))
  | _ => Attempt.stepFault (.notAFraction e)

/-- What is left of two factors when one is cancelled against the other. -/
def cancelled : Number → Number → Attempt (Number × Number)
  | .int a, .int b =>
      let divisor : Int := Int.gcd a b
      if divisor = 0 then Attempt.stepFault .zeroOverZero
      else .ok (.int (a / divisor), .int (b / divisor))
  | a, b =>
      if b.isZero then Attempt.stepFault .divisionByZero
      else
        match a.div b with
        | .ok quotient => .ok (quotient, .int 1)
        | .error cause => .error (.overflow cause)

def cancel (e : Expr) (i j : Int) : Attempt Expr :=
  match e with
  | node .binary "/" [numerator, denominator] =>
      let above := (asTrain "*" numerator).children
      let below := (asTrain "*" denominator).children
      match Index.forward? above i, Index.forward? below j with
      | some top, some bottom =>
          match top.numeral?, bottom.numeral? with
          | some a, some b => do
              let (p, q) ← cancelled a b
              return binary "/" (train "*" (above.set i.toNat (ofNumber p)))
                (train "*" (below.set j.toNat (ofNumber q)))
          | _, _ => Attempt.stepFault (.notNumericFactors top bottom)
      | _, _ => Attempt.stepFault .noFactor
  | _ => Attempt.stepFault (.notAFraction e)

def cancelAt (e : Expr) (i j : Int) (address : Address) : Attempt Expr := do
  let fraction ← e.nodeAt address.path
  let result ← fraction.cancel i j
  e.replace result address

end Stepwise.Expr
