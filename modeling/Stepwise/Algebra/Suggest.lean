import Stepwise.Action
import Stepwise.Algebra.BothSides
import Stepwise.Algebra.Calculate
import Stepwise.Collections
import Stepwise.Rule.Basic

/-!
The algebra steps for a selection, in menu order: calculate the selected operation, apply a rule,
do the inverse operation on both sides of an equation, exchange two operands of a commutative
operation, cancel two factors of a fraction. The last three need two selected addresses. The rules
at hand are a table by identifier, their order in menus, and those that are applied automatically,
in order of priority.
-/

namespace Stepwise

structure Catalog where
  rules : Table Rule
  menu : List String
  auto : List String

def Catalog.rule? (catalog : Catalog) (id : String) : Option Rule := catalog.rules.find? id

abbrev Suggestion := Action × Expr

abbrev Provider := Expr → Catalog → List Address → Attempt (List Suggestion)

def Provider.none : Provider := fun _ _ _ => .ok []

end Stepwise

namespace Stepwise.Expr

def calculationAt (e : Expr) (address : Address) : Attempt (List Suggestion) := do
  let (result, name) ← e.calculateAt address
  return [(.step name, result)]

def calculationActions (e : Expr) (alone : Bool) (address : Address) :
    Attempt (List Suggestion) := do
  match ← (e.resolve address).orSkip with
  | none => return []
  | some target =>
      if ← guarded target.isCalculable then e.calculationAt address
      else if alone && target.isNumeral && address.pair.isNone then
        match address.parent? with
        | none => return []
        | some parent => do
            let around ← e.nodeAt parent.path
            if ← guarded around.isCalculable then e.calculationAt parent else return []
      else return []

def ruleActions (e : Expr) (catalog : Catalog) (address : Address) :
    List String → Attempt (List Suggestion)
  | [] => .ok []
  | id :: rest => do
      let first ← match catalog.rule? id with
        | none => pure []
        | some rule => do
            match ← (rule.applyAt e address).orSkip with
            | none => pure []
            | some result => pure [(Action.rule rule.label, result)]
      let others ← ruleActions e catalog address rest
      return first ++ others

def bothSideActions (e : Expr) (pivot target : Address) : Attempt (List Suggestion) :=
  match target.startsWith pivot, target.path.drop pivot.path.length with
  | true, sideIndex :: operandIndex :: _ => do
      match ← (e.nodeAt pivot.path).orSkip with
      | none => return []
      | some statement =>
          if statement.isEquation then
            match Index.get? statement.children sideIndex with
            | none => .error .outOfRange
            | some side =>
                match side.inverseOperator? operandIndex with
                | none => return []
                | some symbol =>
                    match Index.get? side.children operandIndex with
                    | none => .error .outOfRange
                    | some operand => do
                        let (fn, name) ← operationBy symbol operand
                        let applied := do
                          let both ← statement.onBothSides fn
                          e.replace both (.ofPath pivot.path)
                        match ← applied.orSkip with
                        | none => return []
                        | some result => return [(.step name, result)]
          else return []
  | _, _ => .ok []

def commonPath : List Int → List Int → List Int
  | i :: p, j :: q => if i = j then i :: commonPath p q else []
  | _, _ => []

def reordered? (parent : Expr) (i j : Int) : Attempt (Option Expr) :=
  if parent.symbol ∈ commutativeSymbols then
    if parent.isTrain then (parent.swapTerms i j).map some
    else if parent.kind = .binary then (parent.withChildren parent.children.reverse).map some
    else .ok none
  else .ok none

def reorderActions (e : Expr) (first second : Address) : Attempt (List Suggestion) :=
  let shared := commonPath first.path second.path
  match first.path.drop shared.length, second.path.drop shared.length with
  | i :: _, j :: _ => do
      let parent ← e.nodeAt shared
      match ← parent.reordered? i j with
      | none => return []
      | some swapped => do
          let result ← e.replace swapped (.ofPath shared)
          return [(.step "Reorder", result)]
  | _, _ => .ok []

def factorIndex? (part : Expr) : List Int → Option Int
  | [] => some 0
  | [index] =>
      if part.symbol = "*" && (part.kind = .binary || part.kind = .train) then some index
      else none
  | _ => none

def cancelActions (e : Expr) (path : List Int) (above below : List Int) :
    Attempt (List Suggestion) := do
  match ← e.nodeAt path with
  | node .binary "/" [numerator, denominator] =>
      match factorIndex? numerator above, factorIndex? denominator below with
      | some i, some j =>
          match ← (e.cancelAt i j (.ofPath path)).orSkip with
          | none => return []
          | some result => return [(.step "Simplify fraction", result)]
      | _, _ => return []
  | _ => return []

def fractionActions (e : Expr) (first second : Address) : Attempt (List Suggestion) := do
  let a ← e.nodeAt first.path
  if a.isNumeral then
    let b ← e.nodeAt second.path
    if b.isNumeral then
      let shared := commonPath first.path second.path
      match first.path.drop shared.length, second.path.drop shared.length with
      | i :: p, _ :: q => if i = 1 then e.cancelActions shared q p else e.cancelActions shared p q
      | _, _ => return []
    else return []
  else return []

def pairActions (e : Expr) (pivot target : Address) : Attempt (List Suggestion) := do
  if pivot.pair.isNone && target.pair.isNone then
    let both ← (e.bothSideActions pivot target).orSkip
    let reorder ← (e.reorderActions pivot target).orSkip
    let cancel ← (e.fractionActions pivot target).orSkip
    return both.getD [] ++ reorder.getD [] ++ cancel.getD []
  else return []

/-- The steps for a selection given with the most recent address first. -/
def suggestRecent (e : Expr) (catalog : Catalog) : List Address → Attempt (List Suggestion)
  | [] => .ok []
  | target :: before => do
      let calculations ← e.calculationActions before.isEmpty target
      let rules ← e.ruleActions catalog target catalog.menu
      let pairs ← match before with
        | pivot :: _ => e.pairActions pivot target
        | [] => pure []
      return calculations ++ rules ++ pairs

def suggest : Provider := fun e catalog selection => e.suggestRecent catalog selection.reverse

end Stepwise.Expr
