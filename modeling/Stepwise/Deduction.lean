import Stepwise.Matching.Basic
import Stepwise.Matching.Instance

/-!
Deduction with equations and implications. An equation turns a part that matches its left side
into the instance of its right side, an implication turns a whole statement that matches its
premise into the instance of its conclusion.
-/

namespace Stepwise.Expr

/-- How often an equation is instantiated before its left side has to be the target. -/
def maxGroundings : Nat := 8

/-- Instantiates an equation by its match on the target until its left side is the target. -/
def settle (target : Expr) : Nat → Expr → Expr → Attempt Expr
  | 0, lhs, _ => Attempt.stepFault (.lhsMismatch lhs target)
  | passes + 1, lhs, rhs =>
      if lhs = target then .ok rhs
      else do
        let bindings ← target.matchHere lhs
        let groundLhs ← lhs.instantiate bindings
        let groundRhs ← rhs.instantiate bindings
        let _ ← build .statement "=" [groundLhs, groundRhs]
        if groundLhs = lhs ∧ groundRhs = rhs then
          Attempt.stepFault (.lhsMismatch lhs target)
        else settle target passes groundLhs groundRhs

def byEquation (e eq : Expr) : Attempt Expr :=
  match eq.equationSides? with
  | none => Attempt.stepFault (.notAnEquation eq)
  | some (lhs, rhs) => settle e maxGroundings lhs rhs

def byConverse (e eq : Expr) : Attempt Expr :=
  match eq.equationSides? with
  | none => Attempt.stepFault (.notAnEquation eq)
  | some (lhs, rhs) => settle e maxGroundings rhs lhs

def byEquationAt (e eq : Expr) (address : Address) : Attempt Expr := do
  let target ← e.resolve address
  let result ← target.byEquation eq
  e.replace result address

def byConverseAt (e eq : Expr) (address : Address) : Attempt Expr := do
  let target ← e.resolve address
  let result ← target.byConverse eq
  e.replace result address

/-- Turns a statement into the conclusion of an implication whose premise it matches. -/
def infer (e imp : Expr) : Attempt Expr :=
  match imp.implicationSides? with
  | none => Attempt.stepFault (.notAnImplication imp)
  | some (premise, conclusion) =>
      if premise.containsVariable then do
        let bindings ← e.matchHere premise
        let groundPremise ← premise.instantiate bindings
        let groundConclusion ← conclusion.instantiate bindings
        let _ ← build .statement "=>" [groundPremise, groundConclusion]
        if groundPremise = e then return groundConclusion
        else Attempt.stepFault (.premiseMismatch groundPremise e)
      else if premise = e then .ok conclusion
      else Attempt.stepFault (.premiseMismatch premise e)

def addressesFor (e eq : Expr) : Attempt (List Address) :=
  match eq.equationSides? with
  | none => Attempt.stepFault (.notAnEquation eq)
  | some (lhs, _) => .ok ((e.patternMatches lhs).map Prod.fst)

def exchanged (children : List Expr) (i j : Nat) : List Expr :=
  match children[i]?, children[j]? with
  | some a, some b => (children.set i b).set j a
  | _, _ => children

def swapTerms (e : Expr) (i j : Int) : Attempt Expr :=
  if e.isTrain then
    if 0 ≤ i ∧ i < e.children.length ∧ 0 ≤ j ∧ j < e.children.length then
      e.withChildren (exchanged e.children i.toNat j.toNat)
    else Attempt.stepFault (.noSwap i j e.children.length)
  else Attempt.stepFault (.notATrain e)

def swapTermsAt (e : Expr) (i j : Int) (path : List Int) : Attempt Expr := do
  let target ← e.nodeAt path
  let swapped ← target.swapTerms i j
  e.replace swapped (.ofPath path)

end Stepwise.Expr
