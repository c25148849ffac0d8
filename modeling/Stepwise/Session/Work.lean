import Stepwise.Parse.Infix
import Stepwise.Session.Control

/-!
Carrying out the commands on the worksheet, and with them the lines of a session, which are
completed while they are typed. A command that takes a step stores the derivation and answers with
its last line.
-/

namespace Stepwise

def readNumber (written : String) : Attempt Int :=
  match Literal.readInt written with
  | .ok number => .ok number
  | .error cause => .error (.literal cause)

def readAddress (written : String) : Attempt Address :=
  match Address.read written with
  | .ok address => .ok address
  | .error cause => .error (.address cause)

def readSelection (written : List String) : Attempt (List Address) :=
  if written.isEmpty then .error .emptySelection else written.mapM readAddress

namespace Session

def trying {α : Type} (s : Session) (attempt : Attempt α) (next : α → Reply) : Reply :=
  match attempt with
  | .ok value => next value
  | .error fault => .fail s fault

def withSequence (s : Session) (next : Workable → Reply) : Reply :=
  match s.sequence with
  | some worked => next worked
  | none => .refuse s .noSequence

/-- Answers with a text in which the texts of these actions occur. -/
def tell (s : Session) (actions : List Action) (text : String) : Reply :=
  s.trying (actions.mapM Action.said) fun _ => .say s text

def reportLast (s : Session) : Reply :=
  .andThen s s.commit fun stored =>
    match stored.sequence with
    | none => .refuse stored .noSequence
    | some worked =>
        match worked.history.getLast? with
        | some line => stored.tell [line.action] (line.numbered (worked.history.length - 1))
        | none => .fail stored .outOfRange

def enter (s : Session) (index : Nat) : Reply :=
  .andThen s (s.turnTo index) fun moved =>
    match moved.sequence.bind fun worked => worked.history.last? with
    | some e => .say moved ("[" ++ toString index ++ "] " ++ e.display)
    | none => .refuse moved .noSequence

def begin (s : Session) (worksheet : Worksheet) : Reply :=
  enter (s.renew worksheet) s.worksheet.sequences.length

def introduce (s : Session) (written : String) : Reply :=
  s.trying (Parse.infixed s.worksheet.settings.context written) fun e =>
    s.begin (s.worksheet.introduce e)

def introduceLabelled (s : Session) (label : String) : Reply :=
  match s.worksheet.introduceLabelled label with
  | .ok worksheet => s.begin worksheet
  | .error _ => .refuse s (.unknownLabel label)

def switchTo (s : Session) (number : String) : Reply :=
  s.trying (readNumber number) fun index =>
    if 0 ≤ index ∧ index < s.worksheet.sequences.length then s.enter index.toNat
    else .refuse s (.noSequenceAt index)

def suggestionTexts (index : Nat) : List Suggestion → List String
  | [] => []
  | (action, e) :: rest =>
      (toString index ++ ": " ++ action.text ++ " -> " ++ e.display) ::
        suggestionTexts (index + 1) rest

def suggest (s : Session) (addresses : List String) : Reply :=
  s.withSequence fun worked =>
    s.trying (readSelection addresses) fun selection =>
      s.trying (worked.settings.suggestions worked.history selection) fun available =>
        s.tell (available.map Prod.fst)
          (if available.isEmpty then "No actions"
          else Text.joined "\n" (suggestionTexts 0 available))

def afterRun (s : Session) (run : Run Bool) (refusal : Refusal) : Reply :=
  let worked := s.rework run.history
  Reply.after run.notices
    (match run.result with
      | .ok true => worked.reportLast
      | .ok false => .refuse worked refusal
      | .error fault => .fail worked fault)

def take (s : Session) (number : String) (addresses : List String) : Reply :=
  s.withSequence fun worked =>
    s.trying (readSelection addresses) fun selection =>
      s.trying (readNumber number) fun choice =>
        s.afterRun (worked.settings.takeSuggestion worked.history selection choice)
          (.noAction number)

def applyRule (s : Session) (id address : String) : Reply :=
  s.withSequence fun worked =>
    s.trying (readAddress address) fun place =>
      s.afterRun (worked.settings.applyRule worked.history id place)
        (.ruleDoesNotApply id address)

def lineNumber (history : History) : Option String → Attempt Int
  | some written => readNumber written
  | none => .ok (history.length - 1)

def label (s : Session) (name : String) (number : Option String) : Reply :=
  s.withSequence fun worked =>
    s.trying (lineNumber worked.history number) fun line =>
      if 0 ≤ line ∧ line < worked.history.length then
        s.trying (worked.history.withLabel (some name) line) fun labelled =>
          let reworked := s.rework labelled
          .andThen reworked reworked.commit fun stored =>
            .say stored ("Labelled line " ++ toString line ++ " as " ++ name)
      else .refuse s (.noLineAt line)

def reset (s : Session) (number : String) : Reply :=
  s.withSequence fun worked =>
    s.trying (readNumber number) fun line =>
      match worked.history.resetTo line with
      | .ok kept => (s.rework kept).reportLast
      | .error _ => .refuse s (.noHistoryLine line)

def work (s : Session) : WorksheetCommand → Reply
  | .introduce written => s.introduce written
  | .introduceLabelled label => s.introduceLabelled label
  | .switchTo number => s.switchTo number
  | .list =>
      s.withSequence fun worked =>
        s.tell (worked.history.map Line.action) worked.history.formatted
  | .suggest addresses => s.suggest addresses
  | .take number addresses => s.take number addresses
  | .applyRule id address => s.applyRule id address
  | .label name number => s.label name number
  | .reset number => s.reset number
  | .misused form => .refuse s (.misused form)
  | .unknown name => .refuse s (.unknownCommand name)

end Session

end Stepwise

namespace Stepwise.Session

def perform (files : Files) (s : Session) : Request → Reply
  | .nothing => .silent s
  | .session command => s.control files command
  | .worksheet command => s.work command

def errorText (cause : Refusal) : String := "Error: " ++ cause.message

structure Answer where
  session : Session
  notices : List Notice
  said : Attempt (Option String)

def respond (files : Files) (s : Session) (line : String) : Answer :=
  let reply := s.perform files (Request.read line)
  ⟨reply.session, reply.notices,
    match reply.result with
    | .ok said => .ok said
    | .error (.refused cause) => .ok (some (errorText cause))
    | .error (.broken fault) => .error fault⟩

def commandNames : List String := [
  ":help", ":quit", ":exit", ":q", ":params", ":load", ":rules", "introduce", "from", "actions",
  "do", "apply", "label", "reset", "show", "switch"]

def completions (s : Session) (line word : String) : List String :=
  let typed := Text.trimLeft line.toList
  let candidates :=
    if "apply ".toList.isPrefixOf typed then s.rules.ids else commandNames
  candidates.filter fun candidate => word.toList.isPrefixOf candidate.toList

end Stepwise.Session
