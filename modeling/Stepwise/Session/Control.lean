import Stepwise.Session.Basic

/-!
Carrying out the commands to the session itself.
-/

namespace Stepwise

/-- The outcome of a command: the session afterwards, what was logged, and what is said or why the
command failed. -/
structure Reply where
  session : Session
  notices : List Notice
  result : Except Failure (Option String)

namespace Reply

def say (s : Session) (text : String) : Reply := ⟨s, [], .ok (some text)⟩

def silent (s : Session) : Reply := ⟨s, [], .ok none⟩

def refuse (s : Session) (cause : Refusal) : Reply := ⟨s, [], .error (.refused cause)⟩

def fail (s : Session) (fault : Fault) : Reply := ⟨s, [], .error (.ofFault fault)⟩

def after (notices : List Notice) (reply : Reply) : Reply :=
  { reply with notices := notices ++ reply.notices }

/-- Goes on with the session that a logged step leaves; if the step fails, the session stays. -/
def andThen (s : Session) (step : Logged Session) (next : Session → Reply) : Reply :=
  match step.result with
  | .ok moved => (next moved).after step.notices
  | .error fault => (fail s fault).after step.notices

end Reply

namespace Session

def helpLines : List String := [
  "EQSHEET Commands:",
  "  :help              Show this help",
  "  :params NAMES...   Declare parameters (constants) for parsing",
  "  :load FILE         Load a rule set (.json)",
  "  :rules             List all loaded rules",
  "  :quit              Exit",
  "",
  "  introduce EXPR     Start a new sequence, e.g. introduce 2 * x - 1 = 3",
  "  from LABEL         Start a new sequence from a labelled line",
  "  actions ADDR...    List possible actions for a selection",
  "  do N ADDR...       Apply action N for a selection",
  "  apply RULE ADDR    Apply a rule at an address",
  "  label NAME [LINE]  Label a line (default: the last one)",
  "  reset LINE         Drop every line after LINE",
  "  show               Print the current sequence",
  "  switch N           Make sequence N current",
  "",
  "Addresses:",
  "  .                  the root",
  "  0.1                second child of the first child",
  "  0:1                pair (1, 2) of the train at child 0"]

def helpText : String := Text.joined "" (helpLines.map fun line => line ++ "\n")

def parametersText (names : List String) : String :=
  "Parameters: " ++ Text.joined ", " names

def load (files : Files) (s : Session) (path : String) : Reply :=
  let loaded := RuleSet.load files path
  Reply.after loaded.notices
    (match loaded.result with
      | .ok (.ok rules) =>
          match checkNormalization rules with
          | .ok _ =>
              .say (s.useRules rules)
                ("Loaded " ++ toString rules.rules.length ++ " rules from " ++ path)
          | .error fault => ⟨{ s with rules := rules }, [], .error (.broken fault)⟩
      | .ok (.error cause) => .say s (cause.report path)
      | .error fault => ⟨s, [], .error (.broken fault)⟩)

def rulesText (rules : RuleSet) : String :=
  if rules.rules.isEmpty then "No rules loaded" else Text.joined "\n" rules.listing

def control (files : Files) (s : Session) : SessionCommand → Reply
  | .empty => .say s "Unknown command. Type :help for help."
  | .help => .say s helpText
  | .quit => .silent { s with running := false }
  | .parameters =>
      .say s (parametersText (if s.parameters.isEmpty then ["(none)"] else s.parameters))
  | .declare names =>
      let declared := s.declare names
      .say declared (parametersText declared.parameters)
  | .load path => if path = "" then .say s "Usage: :load FILENAME" else s.load files path
  | .rules => .say s (rulesText s.rules)
  | .unknown name => .say s (unknownCommandText name)

end Session

end Stepwise
