import Stepwise.Deduction

/-!
Rules: equations and implications with an identifier and a label; and the forms of a statement under
variations of its left side. A variation is an equation that is applied to the root of the left
side; forms whose left side is an instance of a known one are dropped.
-/

namespace Stepwise

inductive Relation
  | equation
  | implication
  deriving DecidableEq

structure Rule where
  id : String
  label : Caption
  relation : Relation
  lhs : Expr
  rhs : Expr
  deriving DecidableEq

namespace Rule

def statement (rule : Rule) : Expr :=
  match rule.relation with
  | .equation => .equation rule.lhs rule.rhs
  | .implication => .implication rule.lhs rule.rhs

def ofStatement (id : String) (label : Caption) (statement : Expr) : Attempt Rule :=
  match statement.equationSides?, statement.implicationSides? with
  | some (lhs, rhs), _ => .ok ⟨id, label, .equation, lhs, rhs⟩
  | _, some (lhs, rhs) => .ok ⟨id, label, .implication, lhs, rhs⟩
  | none, none => Attempt.stepFault (.notARule id statement)

/-- Applies a rule at an address; an implication applies to the whole statement only. -/
def applyAt (rule : Rule) (e : Expr) (address : Address) : Attempt Expr :=
  match rule.relation with
  | .equation => e.byEquationAt rule.statement address
  | .implication =>
      if address.isRoot then e.infer rule.statement
      else Attempt.stepFault (.awayFromRoot rule.id)

def candidates (rule : Rule) (e : Expr) : List Address :=
  match rule.relation with
  | .equation => (e.patternMatches rule.lhs).map Prod.fst
  | .implication => [.root]

def debugText (rule : Rule) : String :=
  "Rule(" ++ Text.quoted rule.id ++ ", " ++ rule.label.quoted ++ ", " ++
    rule.statement.display ++ ")"

end Rule

end Stepwise

namespace Stepwise.Expr

def sides (e : Expr) : Attempt (Expr × Expr) :=
  match e.children with
  | [lhs, rhs] => .ok (lhs, rhs)
  | children => .error (.sides children.length)

def isCovered (lhs : Expr) : List Expr → Attempt Bool
  | [] => .ok false
  | form :: rest =>
      match form.children with
      | known :: _ => do
          if ← lhs.isInstanceOf known then return true else isCovered lhs rest
      | [] => .error .outOfRange

def varyLhs (statement lhs rhs : Expr) (forms : List Expr) : List Expr → Attempt (List Expr)
  | [] => .ok forms
  | variation :: rest => do
      match ← (lhs.byEquation variation).orSkip with
      | none => varyLhs statement lhs rhs forms rest
      | some varied =>
          if ← isCovered varied forms then varyLhs statement lhs rhs forms rest
          else
            let form ← statement.withChildren [varied, rhs]
            varyLhs statement lhs rhs (forms ++ [form]) rest

def varyFrom (statement : Expr) (variations : List Expr) :
    (limit position : Nat) → (forms : List Expr) → Attempt (List Expr)
  | limit, position, forms =>
      match forms[position]? with
      | none => .ok forms
      | some form =>
          match limit with
          | 0 => .error (.tooManyForms position)
          | rest + 1 => do
              let (lhs, rhs) ← form.sides
              let more ← varyLhs statement lhs rhs forms variations
              varyFrom statement variations rest (position + 1) more

/-- All forms of a statement, the statement first. Looks at no more than `limit` forms. -/
def forms (limit : Nat) (statement : Expr) (variations : List Expr) : Attempt (List Expr) :=
  varyFrom statement variations limit 0 [statement]

def formLimit : Nat := 100000

end Stepwise.Expr
