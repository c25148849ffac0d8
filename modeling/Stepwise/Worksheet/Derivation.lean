import Stepwise.Notice
import Stepwise.Worksheet.Line
import Stepwise.Worksheet.Settings

/-!
Extending a derivation. Every new line is brought to normal form, and then the automatic rules are
applied, each time the first one that can be, until none can or a limit is reached. A step that
cannot be taken is logged and leaves the history as it is.
-/

namespace Stepwise

structure Run (α : Type) where
  history : History
  notices : List Notice
  result : Attempt α

namespace Settings

def autoLimit : Nat := 100

def firstApplication (rule : Rule) (e : Expr) :
    List Address → Attempt (Option (Address × Expr))
  | [] => .ok none
  | address :: rest => do
      match ← (rule.applyAt e address).orSkip with
      | some result => return some (address, result)
      | none => firstApplication rule e rest

structure AutoStep where
  ruleId : String
  address : Address
  line : Line

def firstAutoStep (settings : Settings) (e : Expr) : List String → Attempt (Option AutoStep)
  | [] => .ok none
  | id :: rest =>
      match settings.catalog.rule? id with
      | none => firstAutoStep settings e rest
      | some rule => do
          match ← firstApplication rule e (rule.candidates e) with
          | some (address, result) =>
              return some ⟨id, address, .byRule rule.label (settings.normalize result)⟩
          | none => firstAutoStep settings e rest

def autoStep? (settings : Settings) (e : Expr) : Attempt (Option AutoStep) :=
  settings.firstAutoStep e settings.catalog.auto

/-- The lines that at most `limit` automatic applications add after an expression. -/
def saturate (settings : Settings) (limit : Nat) (e : Expr) : Run Unit :=
  match limit with
  | 0 => ⟨[], [.autoLimit autoLimit], .ok ()⟩
  | rest + 1 =>
      match settings.autoStep? e with
      | .error fault => ⟨[], [], .error fault⟩
      | .ok none => ⟨[], [], .ok ()⟩
      | .ok (some step) =>
          let more := saturate settings rest step.line.expr
          ⟨step.line :: more.history, .autoStep step.ruleId step.address :: more.notices,
            more.result⟩

def runAuto (settings : Settings) (history : History) : Run Unit :=
  match history.last? with
  | none => ⟨history, [], .ok ()⟩
  | some e =>
      if settings.catalog.auto.isEmpty then ⟨history, [], .ok ()⟩
      else
        let added := settings.saturate autoLimit e
        ⟨history ++ added.history, added.notices, added.result⟩

/-- Adds a line in normal form, and what the automatic rules make of it. -/
def push (settings : Settings) (history : History) (action : Action) (e : Expr) : Run Unit :=
  settings.runAuto (history ++ [.byUser action (settings.normalize e)])

def answering {α β : Type} (run : Run α) (value : β) : Run β :=
  ⟨run.history, run.notices, run.result.map fun _ => value⟩

/-- Adds the result of a step; false if the step cannot be taken. -/
def tryPush (settings : Settings) (history : History) (action : Action) (produced : Attempt Expr) :
    Run Bool :=
  match produced with
  | .ok e => answering (settings.push history action e) true
  | .error (.step cause) => ⟨history, [.stepFailed action cause], .ok false⟩
  | .error fault => ⟨history, [], .error fault⟩

def applyRule (settings : Settings) (history : History) (id : String) (address : Address) :
    Run Bool :=
  match settings.catalog.rule? id, history.last? with
  | none, _ => ⟨history, [.unknownRule id], .ok false⟩
  | some _, none => ⟨history, [], .error .outOfRange⟩
  | some rule, some e => settings.tryPush history (.rule rule.label) (rule.applyAt e address)

def substitutions (e : Expr) (address : Address) :
    List (String × Expr) → Attempt (List Suggestion)
  | [] => .ok []
  | (label, labelled) :: rest => do
      let first ← (e.byEquationAt labelled address).orSkip
      let others ← substitutions e address rest
      match first with
      | some result => return (.step ("Substitute from " ++ label), result) :: others
      | none => return others

def suggestions (settings : Settings) (history : History) (selection : List Address) :
    Attempt (List Suggestion) :=
  match history.last?, selection.getLast? with
  | some e, some address => do
      let known ← substitutions e address settings.labels
      let others ← settings.provider e settings.catalog selection
      return known ++ others
  | _, _ => .ok []

def takeSuggestion (settings : Settings) (history : History) (selection : List Address)
    (index : Int) : Run Bool :=
  match settings.suggestions history selection with
  | .error fault => ⟨history, [], .error fault⟩
  | .ok available =>
      match Index.forward? available index with
      | some (action, e) => answering (settings.push history action e) true
      | none => ⟨history, [.noAction index selection available.length], .ok false⟩

end Settings

end Stepwise
