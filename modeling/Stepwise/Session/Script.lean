import Stepwise.Notice
import Stepwise.Session.Work
import Stepwise.Text.Basic

/-!
Scripts: lines that are carried out one after the other until one fails. Of the commands to the
session only failures are shown, told by their wording. Of the commands on the worksheet a quiet
run shows only what a plain listing says.
-/

namespace Stepwise

namespace Script

structure Outcome where
  session : Session
  events : List Event
  completed : Attempt Bool

inductive LineEnd
  | shown (text : Option String)
  | failed (text : String)

def soundsFailed (text : String) : Bool :=
  Text.occurs "Error".toList text.toList || Text.occurs "Unknown".toList text.toList

def controlEnd (said : Option String) : LineEnd :=
  match said.filter soundsFailed with
  | some text => .failed text
  | none => .shown none

def lineEnd (quiet : Bool) (line : String) (request : Request) :
    Except Failure (Option String) → Attempt LineEnd
  | .error (.broken fault) => .error fault
  | .error (.refused cause) => .ok (.failed (Session.errorText cause))
  | .ok said =>
      match request with
      | .session _ => .ok (controlEnd said)
      | _ => .ok (.shown (if quiet && line ≠ "show" then none else said))

def complaint (path : String) (number : Nat) (text : String) : String :=
  path ++ ":" ++ toString number ++ ": " ++ text ++ "\n"

def printing : Option String → List Event
  | some text => if text = "" then [] else [.printed (text ++ "\n")]
  | none => []

def runFrom (files : Files) (path : String) (quiet : Bool) (number : Nat) (s : Session) :
    List String → Outcome
  | [] => ⟨s, [], .ok true⟩
  | line :: rest =>
      let trimmed := String.ofList (Text.trim line.toList)
      let request := Request.read line
      let reply := s.perform files request
      let logged := reply.notices.map Event.logged
      match lineEnd quiet trimmed request reply.result with
      | .error fault => ⟨reply.session, logged, .error fault⟩
      | .ok (.failed text) =>
          ⟨reply.session, logged ++ [.complained (complaint path number text)], .ok false⟩
      | .ok (.shown text) =>
          let more := runFrom files path quiet (number + 1) reply.session rest
          ⟨more.session, logged ++ printing text ++ more.events, more.completed⟩

def linesOf (written : String) : List String :=
  (Text.lines written.toList).map String.ofList

def run (files : Files) (path : String) (quiet : Bool) (s : Session) (written : String) : Outcome :=
  runFrom files path quiet 1 s (linesOf written)

end Script

end Stepwise
