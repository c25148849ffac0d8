import Stepwise.Context
import Stepwise.Notice
import Stepwise.Rule.Basic

/-!
Rule sets: named lists of rules with distinct identifiers, the context in which their text was
read, and the rules that are applied automatically.
-/

namespace Stepwise

structure RuleSet where
  name : Caption
  context : Context
  normalization : Option Caption
  rules : List Rule
  auto : List String

namespace RuleSet

def empty (name : Caption) (context : Context) (normalization : Option Caption) : RuleSet :=
  ⟨name, context, normalization, [], []⟩

def ids (rs : RuleSet) : List String := rs.rules.map Rule.id

def rule? (rs : RuleSet) (id : String) : Option Rule := rs.rules.find? fun rule => rule.id = id

def get (rs : RuleSet) (id : String) : Attempt Rule :=
  match rs.rule? id with
  | some rule => .ok rule
  | none => .error (.missing (.rule id))

def table (rs : RuleSet) : Table Rule := rs.rules.map fun rule => (rule.id, rule)

def add (rs : RuleSet) (rule : Rule) (auto : Bool) : Attempt RuleSet :=
  if rule.id ∈ rs.ids then .error (.ruleSet (.duplicateId rule.id))
  else .ok { rs with
    rules := rs.rules ++ [rule]
    auto := if auto then rs.auto ++ [rule.id] else rs.auto }

def isAuto (rs : RuleSet) (rule : Rule) : Bool := rule.id ∈ rs.auto

def listing (rs : RuleSet) : List String :=
  rs.rules.map fun rule =>
    rule.id ++ ": " ++ rule.label.shown ++ ": " ++ rule.statement.display ++
      (if rs.isAuto rule then " [auto]" else "")

def debugText (rs : RuleSet) : String :=
  "RuleSet(" ++ rs.name.quoted ++ ", " ++ toString rs.rules.length ++ " rules)"

def formId (name id : String) (count index : Nat) : String :=
  if count = 1 then name ++ "/" ++ id else name ++ "/" ++ id ++ "/" ++ toString index

def enterForms (rs : RuleSet) (id : String) (label : Caption) (auto : Bool) (count index : Nat) :
    List Expr → Logged RuleSet
  | [] => pure rs
  | form :: rest => do
      let rule ← .ofAttempt (Rule.ofStatement (formId rs.name.shown id count index) label form)
      let extended ← .ofAttempt (rs.add rule auto)
      Logged.note (.ruleLoaded rule.id form)
      enterForms extended id label auto count (index + 1) rest

def enter (rs : RuleSet) (variations : List Expr) (id : String) (label : Caption) (auto : Bool)
    (statement : Expr) : Logged RuleSet := do
  let forms ← .ofAttempt (statement.forms Expr.formLimit variations)
  rs.enterForms id label auto forms.length 0 forms

end RuleSet

end Stepwise
