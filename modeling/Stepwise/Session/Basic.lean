import Stepwise.Document
import Stepwise.NormalForm
import Stepwise.Rule.Algebra
import Stepwise.Session.Command
import Stepwise.Worksheet.Basic

/-!
Interactive sessions: a rule set, the declared parameters, a worksheet, and the derivation that is
being worked on, which is a copy of a stored one until it is stored again.
-/

namespace Stepwise

/-- A derivation in work. It has the settings of a worksheet in common with it as long as their
generations are the same. -/
structure Workable where
  settings : Settings
  generation : Nat
  history : History

structure Session where
  rules : RuleSet
  parameters : List String
  worksheet : Worksheet
  /-- Counts the settings that the worksheet has had. -/
  generation : Nat
  index : Option Nat
  sequence : Option Workable
  running : Bool

namespace Session

def current (s : Session) : Option (Nat × History) :=
  match s.index, s.sequence with
  | some index, some worked => some (index, worked.history)
  | _, _ => none

def normalizerOf (name : Option Caption) : Normalizer :=
  if name = some (.text "algebra") then Expr.normalize else Settings.keep

def settingsOf (rules : RuleSet) (parameters : List String) : Settings :=
  { Settings.ofRuleSet rules parameters with
    normalizer := normalizerOf rules.normalization
    provider := Expr.suggest }

def ofRules (rules : RuleSet) : Session :=
  ⟨rules, [], .ofSettings (settingsOf rules []), 0, none, none, true⟩

/-- The normal form of a rule set is looked up by its name, for which lists and objects are no
use. -/
def checkNormalization (rules : RuleSet) : Attempt Unit :=
  match rules.normalization with
  | some (.other _ kind) =>
      if kind = "list" ∨ kind = "dict" then .error (.missing (.ability kind .hash)) else .ok ()
  | _ => .ok ()

/-- A fresh session; a rule set without rules gives way to the rules of algebra. -/
def start (rules : RuleSet) : Logged Session :=
  if rules.rules.isEmpty then do
    let algebra ← RuleSet.algebra
    return ofRules algebra
  else do
    Logged.ofAttempt (checkNormalization rules)
    return ofRules rules

/-- Changes the worksheet in place, and with it the settings of a derivation that shares them. -/
def renew (s : Session) (worksheet : Worksheet) : Session :=
  { s with
    worksheet := worksheet
    sequence := s.sequence.map fun worked =>
      if worked.generation = s.generation then { worked with settings := worksheet.settings }
      else worked }

def useRules (s : Session) (rules : RuleSet) : Session :=
  let settings := { settingsOf rules s.parameters with labels := s.worksheet.settings.labels }
  { s with
    rules := rules
    worksheet := ⟨settings, s.worksheet.sequences⟩
    generation := s.generation + 1
    sequence := s.sequence.map fun worked => ⟨settings, s.generation + 1, worked.history⟩ }

def declare (s : Session) (names : List String) : Session :=
  let parameters := OrderedSet.insertAll s.parameters names
  let settings := s.worksheet.settings
  { s with parameters := parameters }.renew { s.worksheet with
    settings := { settings with context := settings.context.addParameters parameters } }

def hold (s : Session) (index : Nat) (history : History) : Session :=
  { s with
    index := some index
    sequence := some ⟨s.worksheet.settings, s.generation, history⟩ }

def rework (s : Session) (history : History) : Session :=
  { s with sequence := s.sequence.map fun worked => { worked with history := history } }

def commit (s : Session) : Logged Session :=
  match s.sequence, s.index with
  | none, _ => pure s
  | some _, none => .ofAttempt (.error (.missing (.ability "list" (.itemsAt "NoneType"))))
  | some worked, some index => do
      let worksheet ← s.worksheet.store index worked.history
      return s.renew worksheet

def turnTo (s : Session) (index : Nat) : Logged Session := do
  let stored ← s.commit
  let history ← .ofAttempt (stored.worksheet.sequence index)
  return stored.hold index history

end Session

end Stepwise
