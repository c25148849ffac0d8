import Stepwise.Action
import Stepwise.Fault

/-!
What is logged while a rule set is loaded or a worksheet is worked on, and what a program does for
others to see: it prints, it complains, and it logs.
-/

namespace Stepwise

inductive Notice
  | ruleLoaded (id : String) (form : Expr)
  | stepFailed (action : Action) (cause : StepFault)
  | autoStep (ruleId : String) (address : Address)
  | autoLimit (count : Nat)
  | unknownRule (id : String)
  | noAction (index : Int) (selection : List Address) (available : Nat)
  | labelPublished (label : String)
  deriving DecidableEq

namespace Notice

def isWarning : Notice → Bool
  | stepFailed .. | autoLimit _ | unknownRule _ | noAction .. => true
  | ruleLoaded .. | autoStep .. | labelPublished _ => false

def isAboutLoading : Notice → Bool
  | ruleLoaded .. => true
  | _ => false

def source (notice : Notice) : String :=
  if notice.isAboutLoading then "eqsheet.rule" else "eqsheet.worksheet"

def message : Notice → String
  | ruleLoaded id form => "loaded rule " ++ id ++ ": " ++ form.display
  | stepFailed action cause =>
      action.text ++ " failed: " ++ cause.name ++ ": " ++ cause.message
  | autoStep ruleId address => "auto rule " ++ ruleId ++ " at " ++ address.text
  | autoLimit count => "auto rules stopped after " ++ toString count ++ " applications"
  | unknownRule id => "unknown rule " ++ Text.quoted id
  | noAction index selection available =>
      "no action " ++ toString index ++ " for selection " ++
        Text.quotedList (selection.map Address.text) ++ " (" ++ toString available ++ " available)"
  | labelPublished label => "label " ++ Text.quoted label ++ " published"

def text (notice : Notice) : String :=
  (if notice.isWarning then "WARNING " else "DEBUG ") ++ notice.source ++ ": " ++ notice.message

end Notice

/-- A computation that logs, and may fail after it has logged. -/
structure Logged (α : Type) where
  notices : List Notice
  result : Attempt α

namespace Logged

variable {α β : Type}

def ofAttempt (result : Attempt α) : Logged α := ⟨[], result⟩

def note (notice : Notice) : Logged Unit := ⟨[notice], .ok ()⟩

def andThen (first : Logged α) (next : α → Logged β) : Logged β :=
  match first.result with
  | .ok value => ⟨first.notices ++ (next value).notices, (next value).result⟩
  | .error fault => ⟨first.notices, .error fault⟩

instance : Monad Logged where
  pure value := ⟨[], .ok value⟩
  bind := andThen

end Logged

inductive Event
  | printed (text : String)
  | complained (text : String)
  | logged (notice : Notice)
  deriving DecidableEq

namespace Event

def isShown (verbose : Bool) : Event → Bool
  | logged notice => verbose || notice.isWarning
  | _ => true

def printedText : Event → String
  | printed text => text
  | _ => ""

def complainedText : Event → String
  | complained text => text
  | logged notice => notice.text ++ "\n"
  | printed _ => ""

end Event

end Stepwise
