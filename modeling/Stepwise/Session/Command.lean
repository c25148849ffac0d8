import Stepwise.Fault
import Stepwise.Text.Basic
import Stepwise.Text.LowerCase

/-!
The lines of a session. A line that starts with a colon is a command to the session itself; any
other line is a command on the worksheet, told apart by its first word. Reading a command settles
which arguments it has; what they mean is settled when it is carried out.
-/

namespace Stepwise

inductive SessionCommand
  | empty
  | help
  | quit
  | parameters
  | declare (names : List String)
  | load (path : String)
  | rules
  | unknown (name : String)
  deriving DecidableEq

namespace SessionCommand

def names (argument : List Char) : List String :=
  (Text.runsAfter (fun c => Text.isBlank c || c = ',') [] argument).map String.ofList

def ofName (name : String) (argument : List Char) : SessionCommand :=
  if name = "help" then help
  else if name = "quit" ∨ name = "exit" ∨ name = "q" then quit
  else if name = "params" then
    if argument.isEmpty then parameters else declare (names argument)
  else if name = "load" then load (String.ofList argument)
  else if name = "rules" then rules
  else unknown name

def read (cs : List Char) : SessionCommand :=
  match Text.trimLeft cs with
  | [] => empty
  | c :: rest =>
      let name := (c :: rest).takeWhile fun c => !Text.isBlank c
      ofName (String.ofList (Text.lower name)) (Text.trimLeft ((c :: rest).drop name.length))

end SessionCommand

inductive WorksheetCommand
  | introduce (written : String)
  | introduceLabelled (label : String)
  | switchTo (number : String)
  | list
  | suggest (addresses : List String)
  | take (number : String) (addresses : List String)
  | applyRule (id address : String)
  | label (name : String) (number : Option String)
  | reset (number : String)
  | misused (form : String)
  | unknown (name : String)
  deriving DecidableEq

namespace WorksheetCommand

/-- A label and the number of a line; a last word of digits is the number. -/
def labelling (rest : String) (words : List String) : WorksheetCommand :=
  match words.reverse with
  | [] => misused "label NAME [LINE]"
  | [_] => label rest none
  | last :: before =>
      if last.toList.all Text.isDigitLike then
        label (Text.joined " " before.reverse) (some last)
      else label rest none

def ofName (name rest : String) (words : List String) : WorksheetCommand :=
  if name = "introduce" then if rest = "" then misused "introduce EXPR" else introduce rest
  else if name = "from" then if rest = "" then misused "from LABEL" else introduceLabelled rest
  else if name = "switch" then switchTo rest
  else if name = "show" then list
  else if name = "actions" then suggest words
  else if name = "do" then
    match words with
    | number :: address :: more => take number (address :: more)
    | _ => misused "do N ADDR..."
  else if name = "apply" then
    match words with
    | [id, address] => applyRule id address
    | _ => misused "apply RULE_ID ADDR"
  else if name = "label" then labelling rest words
  else if name = "reset" then reset rest
  else unknown name

def read (cs : List Char) : WorksheetCommand :=
  let rest := Text.trim ((cs.dropWhile (· ≠ ' ')).drop 1)
  ofName (String.ofList (cs.takeWhile (· ≠ ' '))) (String.ofList rest)
    ((Text.words rest).map String.ofList)

end WorksheetCommand

inductive Request
  | nothing
  | session (command : SessionCommand)
  | worksheet (command : WorksheetCommand)
  deriving DecidableEq

def Request.read (line : String) : Request :=
  match Text.trim line.toList with
  | [] => nothing
  | '#' :: _ => nothing
  | ':' :: rest => session (SessionCommand.read rest)
  | cs => worksheet (WorksheetCommand.read cs)

inductive Refusal
  | misused (form : String)
  | noSequence
  | unknownLabel (label : String)
  | noSequenceAt (index : Int)
  | noAction (number : String)
  | ruleDoesNotApply (id address : String)
  | noLineAt (index : Int)
  | noHistoryLine (index : Int)
  | unknownCommand (name : String)
  | unparsed (cause : ParseFault)
  | invalid (fault : Fault)
  deriving DecidableEq

def unknownCommandText (name : String) : String :=
  "Unknown command: " ++ name ++ ". Type :help for help."

def Refusal.message : Refusal → String
  | misused form => "Usage: " ++ form
  | noSequence => "No current sequence. Use 'introduce' first."
  | unknownLabel label => "Unknown label: " ++ label
  | noSequenceAt index => "No sequence " ++ toString index
  | noAction number => "No action " ++ number ++ " for that selection"
  | ruleDoesNotApply id address => "Rule " ++ id ++ " does not apply at " ++ address
  | noLineAt index => "No line " ++ toString index
  | noHistoryLine index => (Fault.noLine index).message
  | unknownCommand name => unknownCommandText name
  | unparsed cause => "Parse error: " ++ cause.message
  | invalid fault => "Invalid argument: " ++ fault.message

inductive Failure
  | refused (cause : Refusal)
  | broken (fault : Fault)
  deriving DecidableEq

/-- Malformed arguments are refused; what else fails breaks the command off. -/
def Failure.ofFault : Fault → Failure
  | .parse cause => .refused (.unparsed cause)
  | fault => if fault.isInvalidArgument then .refused (.invalid fault) else .broken fault

end Stepwise
