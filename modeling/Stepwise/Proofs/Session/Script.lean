import Stepwise.Proofs.Session.Sound
import Stepwise.Proofs.Session.Wording

/-!
A script against the session that its lines are fed to. Both take the same steps; the script ends
early where a line fails, where a line breaks off, and where the answer to a command to the session
happens to have a word in it that failures are told by.
-/

namespace Stepwise

open Script (soundsFailed)

namespace Session

variable {files : Files} {s : Session}

/-- A command on the worksheet fails if that is what it answers. -/
def Fails (files : Files) (s : Session) (line : String) : Prop :=
  match Request.read line with
  | .nothing => False
  | .session command => command.Fails files
  | .worksheet _ => ∃ text, (s.respond files line).said = .ok (some ("Error: " ++ text))

def IsMisheard (files : Files) (s : Session) (line : String) : Prop :=
  match Request.read line with
  | .session command => command.IsMisheard files s
  | _ => False

/-- The line fails, is taken to fail, or is not answered. -/
def Stops (files : Files) (s : Session) (line : String) : Prop :=
  s.Fails files line ∨ s.IsMisheard files line ∨ ∃ fault, (s.respond files line).said = .error fault

/-- What the end of the line tells a script. -/
inductive Ending (files : Files) (s : Session) (line : String) : Attempt Script.LineEnd → Prop
  | broken {fault : Fault} : (s.respond files line).said = .error fault →
      Ending files s line (.error fault)
  | failed {said : Option String} (text : String) : s.Fails files line ∨ s.IsMisheard files line →
      (s.respond files line).said = .ok said → Ending files s line (.ok (.failed text))
  | shown (said : Option String) : ¬s.Stops files line → Ending files s line (.ok (.shown said))

def answerOf : Except Failure (Option String) → Attempt (Option String)
  | .ok said => .ok said
  | .error (.refused cause) => .ok (some (errorText cause))
  | .error (.broken fault) => .error fault

theorem said_eq {line : String} {request : Request} (read : Request.read line = request) :
    (s.respond files line).said = answerOf (s.perform files request).result := by
  rw [← read]
  rfl

theorem ending_control (quiet : Bool) (trimmed : String) {line : String} {command : SessionCommand}
    (read : Request.read line = .session command) :
    s.Ending files line (Script.lineEnd quiet trimmed (.session command)
      (s.control files command).result) := by
  have answer : (s.respond files line).said = answerOf (s.control files command).result :=
    said_eq read
  have sounds := @soundsFailed_control files s command
  have stops : s.Fails files line ∨ s.IsMisheard files line ↔
      command.Fails files ∨ command.IsMisheard files s := by
    simp only [Fails, IsMisheard, read]
  cases result : (s.control files command).result with
  | ok said =>
      rw [result] at answer
      change s.Ending files line (.ok (Script.controlEnd said))
      unfold Script.controlEnd
      split
      · rename_i text heard
        rw [Option.filter_eq_some_iff] at heard
        exact .failed text (stops.mpr ((sounds result).mp ⟨text, heard⟩)) answer
      · rename_i unheard
        refine .shown none ?_
        rw [Stops, ← or_assoc, stops, ← sounds result, answer]
        simpa [Option.filter_eq_none_iff, answerOf] using unheard
  | error failure =>
      rw [result] at answer
      cases failure with
      | refused cause => exact absurd result (control_ne_refused command cause)
      | broken fault => exact .broken answer

theorem ending_work (quiet : Bool) (trimmed : String) {line : String} {command : WorksheetCommand}
    (read : Request.read line = .worksheet command) :
    s.Ending files line (Script.lineEnd quiet trimmed (.worksheet command)
      (s.work command).result) := by
  have answer : (s.respond files line).said = answerOf (s.work command).result := said_eq read
  cases result : (s.work command).result with
  | ok said =>
      rw [result] at answer
      refine .shown _ ?_
      have told : ∀ text, said ≠ some ("Error: " ++ text) := by
        rintro text rfl
        exact saysNoError_work s command _ result (by simp)
      simp [Stops, Fails, IsMisheard, read, answer, answerOf, told]
  | error failure =>
      rw [result] at answer
      cases failure with
      | refused cause =>
          refine .failed _ (Or.inl ?_) answer
          simp only [Fails, read]
          exact ⟨cause.message, answer⟩
      | broken fault => exact .broken answer

theorem ending (files : Files) (s : Session) (quiet : Bool) (trimmed line : String) :
    s.Ending files line (Script.lineEnd quiet trimmed (Request.read line)
      (s.perform files (Request.read line)).result) := by
  cases read : Request.read line with
  | nothing =>
      refine .shown _ ?_
      simp [Stops, Fails, IsMisheard, respond, read, perform, Reply.silent]
  | session command => exact ending_control quiet trimmed read
  | worksheet command => exact ending_work quiet trimmed read

/-! Scripts. -/

def fed (files : Files) (s : Session) (lines : List String) : Session :=
  lines.foldl (fun s line => (s.respond files line).session) s

def Unstopped (files : Files) (s : Session) : List String → Prop
  | [] => True
  | line :: rest => ¬s.Stops files line ∧ (s.respond files line).session.Unstopped files rest

/-- The script gets through if no line stops it, and otherwise as far as the first that does. -/
structure Follows (files : Files) (s : Session) (lines : List String)
    (outcome : Script.Outcome) : Prop where
  completed : outcome.completed = .ok true ↔ s.Unstopped files lines
  through : s.Unstopped files lines → outcome.session = s.fed files lines
  stopped : ∀ before line after, lines = before ++ line :: after → s.Unstopped files before →
    (s.fed files before).Stops files line →
      outcome.session = s.fed files (before ++ [line]) ∧
        outcome.completed = ((s.fed files before).respond files line).said.map fun _ => false

theorem runFrom_follows (files : Files) (path : String) (quiet : Bool) (number : Nat) (s : Session)
    (lines : List String) :
    s.Follows files lines (Script.runFrom files path quiet number s lines) := by
  induction lines generalizing number s with
  | nil =>
      refine ⟨by simp [Script.runFrom, Unstopped], fun _ => rfl, ?_⟩
      intro before line after whole
      simp at whole
  | cons line rest ih =>
      have ends := s.ending files quiet (String.ofList (Text.trim line.toList)) line
      rw [Script.runFrom]
      generalize Script.lineEnd quiet (String.ofList (Text.trim line.toList)) (Request.read line)
        (s.perform files (Request.read line)).result = found at ends
      have stopping : s.Stops files line → ∀ completed : Attempt Bool, completed ≠ .ok true →
          completed = (s.respond files line).said.map (fun _ => false) → ∀ events : List Event,
            s.Follows files (line :: rest) ⟨(s.respond files line).session, events, completed⟩ := by
        intro stops completed early same events
        have notThrough : ¬s.Unstopped files (line :: rest) := fun unstopped => unstopped.1 stops
        refine ⟨iff_of_false early notThrough, fun unstopped => absurd unstopped notThrough, ?_⟩
        intro before other after whole earlier _
        cases before with
        | nil =>
            obtain rfl := (List.cons.inj whole).1
            exact ⟨rfl, same⟩
        | cons first before =>
            obtain rfl := (List.cons.inj whole).1
            exact absurd stops earlier.1
      cases ends with
      | @broken fault broken =>
          exact stopping (Or.inr (Or.inr ⟨fault, broken⟩)) _ (by simp) (by rw [broken]; rfl) _
      | failed text fails answered =>
          exact stopping (or_assoc.mp (Or.inl fails)) _ (by simp) (by rw [answered]; rfl) _
      | shown said goesOn =>
          have more := ih (number + 1) (s.respond files line).session
          refine ⟨?_, fun unstopped => more.through unstopped.2, ?_⟩
          · exact more.completed.trans (and_iff_right goesOn).symm
          · intro before other after whole earlier stops
            cases before with
            | nil =>
                obtain rfl := (List.cons.inj whole).1
                exact absurd stops goesOn
            | cons first before =>
                obtain ⟨rfl, tail⟩ := List.cons.inj whole
                exact more.stopped before other after tail earlier.2 stops

/-- A script does what its lines do in a session, as far as the first that fails, is taken to fail,
or is not answered. -/
theorem run_follows (files : Files) (path : String) (quiet : Bool) (s : Session)
    (written : String) :
    s.Follows files (Script.linesOf written) (Script.run files path quiet s written) :=
  runFrom_follows files path quiet 1 s (Script.linesOf written)

/-- A parameter is declared whose name has such a word in it; the session answers. -/
theorem run_stops_at_name : ∃ rules : RuleSet, RuleSet.algebra.result = .ok rules ∧
    (start (RuleSet.empty "none" .empty none)).result = .ok (ofRules rules) ∧
    Script.linesOf ":params ErrorRate" = [":params ErrorRate"] ∧
    ¬(ofRules rules).Fails Files.none ":params ErrorRate" ∧
    ((ofRules rules).respond Files.none ":params ErrorRate").said =
      .ok (some "Parameters: ErrorRate") ∧
    (Script.run Files.none "s.eqs" false (ofRules rules) ":params ErrorRate").completed =
      .ok false := by
  obtain ⟨rules, loaded, _, _, started⟩ := start_algebra
  have lines : Script.linesOf ":params ErrorRate" = [":params ErrorRate"] := by decide +kernel
  have read : Request.read ":params ErrorRate" = .session (.declare ["ErrorRate"]) := by
    decide +kernel
  have declared : ((ofRules rules).declare ["ErrorRate"]).parameters = ["ErrorRate"] := rfl
  have answered : ((ofRules rules).respond Files.none ":params ErrorRate").said =
      .ok (some "Parameters: ErrorRate") := by
    rw [said_eq read]
    rfl
  have misheard : (ofRules rules).IsMisheard Files.none ":params ErrorRate" := by
    have sounds : soundsFailed "ErrorRate" = true := by decide +kernel
    simp only [IsMisheard, read, SessionCommand.IsMisheard, declared]
    exact ⟨_, by simp, sounds⟩
  refine ⟨rules, loaded, started, lines, ?_, answered, ?_⟩
  · simp [Fails, read, SessionCommand.Fails]
  · have stopped := (runFrom_follows Files.none "s.eqs" false 1 (ofRules rules) _).stopped []
      ":params ErrorRate" [] lines trivial (Or.inr (Or.inl misheard))
    refine stopped.2.trans ?_
    change ((ofRules rules).respond Files.none ":params ErrorRate").said.map _ = _
    rw [answered]
    rfl

end Session

end Stepwise
