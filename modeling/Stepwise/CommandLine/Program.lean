import Stepwise.CommandLine.Options
import Stepwise.Session.Script

/-!
What the program does: it shows the rules, carries out a script, or converses line by line. A
conversation is a state that takes a line at a time, so that it can be held with a user as well as
with a text.
-/

namespace Stepwise.CommandLine

def usageText : String :=
  "usage: eqsheet [-h] [-r RULES] [--list] [-q] [-v] [--version] [script]\n"

def helpLines : List String := [
  "",
  "EQSHEET - step-by-step equation worksheets",
  "",
  "positional arguments:",
  "  script                Script file to run (.eqs)",
  "",
  "options:",
  "  -h, --help            show this help message and exit",
  "  -r RULES, --rules RULES",
  "                        Rule set file (.json); defaults to the built-in",
  "                        algebra rules",
  "  --list                Print the rule catalog and exit",
  "  -q, --quiet           Quiet mode (only print 'show' output in scripts)",
  "  -v, --verbose         Log rule loading and automatic rewrites",
  "  --version             show program's version number and exit",
  "",
  "Examples:",
  "  eqsheet                        Start REPL",
  "  eqsheet session.eqs            Run a worksheet script",
  "  eqsheet --list                 Print the rule catalog",
  "  eqsheet -r rules.json --list   Catalog of another rule set"]

def helpText : String :=
  usageText ++ Text.joined "" (helpLines.map fun line => line ++ "\n")

def versionText : String := "eqsheet 0.1.0\n"

def usageComplaint (fault : UsageFault) : String :=
  usageText ++ "eqsheet: error: " ++ fault.message ++ "\n"

structure Outcome where
  events : List Event
  exit : Attempt Nat

namespace Outcome

def after (events : List Event) (outcome : Outcome) : Outcome :=
  ⟨events ++ outcome.events, outcome.exit⟩

def complaining (text : String) (code : Nat) : Outcome := ⟨[.complained text], .ok code⟩

def ofStop : Stop → Outcome
  | .help => ⟨[.printed helpText], .ok 0⟩
  | .version => ⟨[.printed versionText], .ok 0⟩
  | .misused fault => complaining (usageComplaint fault) 2

def shown (verbose : Bool) (outcome : Outcome) : Outcome :=
  { outcome with events := outcome.events.filter (Event.isShown verbose) }

def printed (outcome : Outcome) : String :=
  Text.joined "" (outcome.events.map Event.printedText)

def complained (outcome : Outcome) : String :=
  Text.joined "" (outcome.events.map Event.complainedText)

end Outcome

def greeting : String :=
  "EQSHEET - step-by-step equation worksheets\nType :help for help, :quit to exit\n\n"

def prompt : String := "eqsheet> "

def answerEvents (answer : Session.Answer) : List Event :=
  answer.notices.map .logged ++
    (match answer.said with
      | .ok said => Script.printing said
      | .error _ => [])

def converse (files : Files) (s : Session) : List String → Outcome
  | [] => ⟨if s.running then [.printed prompt, .printed "\n"] else [], .ok 0⟩
  | line :: rest =>
      if s.running then
        let answer := s.respond files line
        .after (.printed prompt :: answerEvents answer)
          (match answer.said with
            | .ok _ => converse files answer.session rest
            | .error fault => ⟨[], .error fault⟩)
      else ⟨[], .ok 0⟩

def inputLines (input : String) : List String :=
  let parts := Text.splitAt '\n' input.toList
  (if parts.getLast? = some [] then parts.dropLast else parts).map String.ofList

/-! The program. -/

def defaultRules : String := "algebra"

def given (text : Option String) : Option String := text.filter fun t => t ≠ ""

def rulesFor (files : Files) (path : Option String) : Logged (Except String RuleSet) :=
  let (name, loaded) := match given path with
    | some path => (path, RuleSet.load files path)
    | none => (defaultRules, RuleSet.diagnosed (RuleSet.builtIn defaultRules))
  ⟨loaded.notices, loaded.result.map (Except.mapError (LoadFault.report name))⟩

def runScript (files : Files) (quiet : Bool) (s : Session) (path : String) : Outcome :=
  let plain := Files.plainPath path
  match files.read path with
  | .error cause =>
      .complaining ("Error reading " ++ plain ++ ": " ++ cause.message ++ "\n") 1
  | .ok written =>
      let outcome := Script.run files plain quiet s written
      ⟨outcome.events, outcome.completed.map fun completed => if completed then 0 else 1⟩

inductive Course
  | finished (outcome : Outcome)
  | conversing (before : List Event) (s : Session)

namespace Course

def after (events : List Event) : Course → Course
  | finished outcome => finished (.after events outcome)
  | conversing before s => conversing (events ++ before) s

def ofLogged {α : Type} (step : Logged α) (next : α → Course) : Course :=
  after (step.notices.map .logged)
    (match step.result with
      | .ok value => next value
      | .error fault => finished ⟨[], .error fault⟩)

end Course

def course (files : Files) (options : Options) : Course :=
  .ofLogged (rulesFor files options.rules) fun
    | .error complaint => .finished (.complaining (complaint ++ "\n") 1)
    | .ok rules =>
        if options.list then
          .finished ⟨rules.listing.map fun line => .printed (line ++ "\n"), .ok 0⟩
        else
          .ofLogged (Session.start rules) fun s =>
            match given options.script with
            | some path => .finished (runScript files options.quiet s path)
            | none => .conversing [.printed greeting] s

def run (files : Files) (arguments : List String) (input : String) : Outcome :=
  match readOptions arguments with
  | .error stop => .ofStop stop
  | .ok options =>
      match course files options with
      | .finished outcome => outcome.shown options.verbose
      | .conversing before s =>
          (Outcome.after before (converse files s (inputLines input))).shown options.verbose

end Stepwise.CommandLine
