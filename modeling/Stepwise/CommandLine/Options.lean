import Stepwise.Text.Basic
import Stepwise.Text.Quoted

/-!
The options of the command line. All arguments are classified first, which can find an ambiguous
abbreviation; then they take effect from left to right, and the first one that is misused, or that
asks for the version or for help, ends the reading. Arguments that nothing takes are complained
about last.
-/

namespace Stepwise.CommandLine

inductive Switch
  | help
  | rules
  | list
  | quiet
  | verbose
  | version
  deriving DecidableEq

namespace Switch

def letter? : Switch → Option Char
  | help => some 'h'
  | rules => some 'r'
  | quiet => some 'q'
  | verbose => some 'v'
  | list | version => none

def word : Switch → String
  | help => "help"
  | rules => "rules"
  | list => "list"
  | quiet => "quiet"
  | verbose => "verbose"
  | version => "version"

def all : List Switch := [help, rules, list, quiet, verbose, version]

def takesValue (switch : Switch) : Bool := switch = rules

def longName (switch : Switch) : String := "--" ++ switch.word

def names (switch : Switch) : List String :=
  match switch.letter? with
  | some c => [String.ofList ['-', c], switch.longName]
  | none => [switch.longName]

def ofLetter? (c : Char) : Option Switch := all.find? fun switch => switch.letter? = some c

def ofLongName? (name : String) : Option Switch :=
  all.find? fun switch => switch.longName = name

end Switch

inductive UsageFault
  | ambiguous (argument : String) (candidates : List Switch)
  | needsValue (switch : Switch)
  | takesNoValue (switch : Switch) (value : String)
  | unrecognized (arguments : List String)
  deriving DecidableEq

def UsageFault.message : UsageFault → String
  | ambiguous argument candidates =>
      "ambiguous option: " ++ argument ++ " could match " ++
        Text.joined ", " (candidates.map Switch.longName)
  | needsValue switch =>
      "argument " ++ Text.joined "/" switch.names ++ ": expected one argument"
  | takesNoValue switch value =>
      "argument " ++ Text.joined "/" switch.names ++ ": ignored explicit argument " ++
        Text.quoted value
  | unrecognized arguments => "unrecognized arguments: " ++ Text.joined " " arguments

inductive Argument
  | operand (text : String)
  /-- The first two dashes on their own; everything after them is an operand. -/
  | separator
  | word (switch : Switch) (value : Option String)
  /-- A switch by its letter, and what is attached to the letter, directly or with an equals
  sign. -/
  | letter (switch : Switch) (attached : Option (List Char))
  | unknown (text : String)
  deriving DecidableEq

def splitValue (cs : List Char) : String × Option String :=
  match cs.dropWhile (· ≠ '=') with
  | [] => (String.ofList cs, none)
  | _ :: value => (String.ofList (cs.takeWhile (· ≠ '=')), some (String.ofList value))

/-- A minus and a decimal number. A line feed may follow. -/
def isNegativeNumber : List Char → Bool
  | '-' :: cs =>
      let number := if cs.getLast? = some '\n' then cs.dropLast else cs
      match number.dropWhile Text.isDecimalDigit with
      | [] => !number.isEmpty
      | '.' :: fraction => !fraction.isEmpty && fraction.all Text.isDecimalDigit
      | _ => false
  | _ => false

def classifyOther (cs : List Char) : Argument :=
  if isNegativeNumber cs || ' ' ∈ cs then .operand (String.ofList cs)
  else .unknown (String.ofList cs)

def classifyWord (cs : List Char) : Except UsageFault Argument :=
  let (name, value) := splitValue cs
  match Switch.ofLongName? name with
  | some switch => .ok (.word switch value)
  | none =>
      match Switch.all.filter fun switch => name.toList.isPrefixOf switch.longName.toList with
      | [] => .ok (classifyOther cs)
      | [switch] => .ok (.word switch value)
      | candidates => .error (.ambiguous (String.ofList cs) candidates)

def attachedTo : List Char → Option (List Char)
  | [] => none
  | '=' :: value => some value
  | value => some value

def classify (text : String) : Except UsageFault Argument :=
  match text.toList with
  | '-' :: '-' :: rest => classifyWord ('-' :: '-' :: rest)
  | '-' :: c :: rest =>
      match Switch.ofLetter? c with
      | some switch => .ok (.letter switch (attachedTo rest))
      | none => .ok (classifyOther ('-' :: c :: rest))
  | _ => .ok (.operand text)

def classifyAll : List String → Except UsageFault (List Argument)
  | [] => .ok []
  | text :: rest =>
      if text = "--" then .ok (.separator :: rest.map .operand)
      else do
        let first ← classify text
        let others ← classifyAll rest
        return first :: others

structure Options where
  rules : Option String
  list : Bool
  quiet : Bool
  verbose : Bool
  script : Option String
  deriving DecidableEq

def Options.none : Options := ⟨.none, false, false, false, .none⟩

inductive Stop
  | help
  | version
  | misused (fault : UsageFault)
  deriving DecidableEq

def Options.turnOn (options : Options) : Switch → Except Stop Options
  | .help => .error .help
  | .version => .error .version
  | .list => .ok { options with list := true }
  | .quiet => .ok { options with quiet := true }
  | .verbose => .ok { options with verbose := true }
  | .rules => .ok options

/-- What a group of letters stands for: switches without a value, and perhaps a last one that takes
one, with what is attached to it. -/
structure Group where
  switches : List Switch
  last : Option (Switch × Option String)

/-- Reads a switch and the letters attached to it. A letter that is no switch makes all that is
attached a value, which the switch before it does not take. -/
def readLetters (switch : Switch) : List Char → Except UsageFault Group
  | [] =>
      if switch.takesValue then .ok ⟨[], some (switch, none)⟩
      else .ok ⟨[switch], none⟩
  | c :: rest =>
      if switch.takesValue then .ok ⟨[], some (switch, some (String.ofList (c :: rest)))⟩
      else
        match Switch.ofLetter? c with
        | none => .error (.takesNoValue switch (String.ofList (c :: rest)))
        | some next => do
            let group ← readLetters next rest
            return { group with switches := switch :: group.switches }

def readGroup (switch : Switch) : Option (List Char) → Except UsageFault Group
  | some [] =>
      if switch.takesValue then .ok ⟨[], some (switch, some "")⟩
      else .error (.takesNoValue switch "")
  | attached => readLetters switch (attached.getD [])

structure Reading where
  options : Options
  unused : List String

def Reading.leave (r : Reading) (text : String) : Reading :=
  { r with unused := r.unused ++ [text] }

def Reading.turnOn (r : Reading) (switch : Switch) : Except Stop Reading := do
  let options ← r.options.turnOn switch
  return { r with options := options }

def Reading.useRules (r : Reading) (path : String) : Reading :=
  { r with options := { r.options with rules := if path = "--" then none else some path } }

def Reading.useScript (r : Reading) (path : String) : Reading :=
  { r with options := { r.options with script := some path } }

def Reading.expectsScript (r : Reading) : Bool := r.options.script.isNone

def misuse {α : Type} : Except UsageFault α → Except Stop α
  | .ok value => .ok value
  | .error fault => .error (.misused fault)

def nextOperand? : List Argument → Option String
  | .operand text :: _ => some text
  | _ => none

def dropSeparator : List Argument → List Argument
  | .separator :: rest => rest
  | arguments => arguments

theorem length_dropSeparator (arguments : List Argument) :
    (dropSeparator arguments).length ≤ arguments.length := by
  unfold dropSeparator
  split
  · exact Nat.le_succ _
  · exact Nat.le_refl _

/-- Lets the arguments take effect. A separator is dropped where the script is expected and right
behind the script. -/
def readArguments (r : Reading) : List Argument → Except Stop Reading
  | [] => .ok r
  | .operand text :: rest =>
      have := length_dropSeparator rest
      if r.expectsScript then readArguments (r.useScript text) (dropSeparator rest)
      else readArguments (r.leave text) rest
  | .separator :: rest => readArguments (if r.expectsScript then r else r.leave "--") rest
  | .unknown text :: rest => readArguments (r.leave text) rest
  | .word switch (some value) :: rest =>
      if switch.takesValue then readArguments (r.useRules value) rest
      else .error (.misused (.takesNoValue switch value))
  | .word switch none :: rest =>
      if switch.takesValue then
        match nextOperand? rest with
        | some path => readArguments (r.useRules path) (rest.drop 1)
        | none => .error (.misused (.needsValue switch))
      else do
        let next ← r.turnOn switch
        readArguments next rest
  | .letter switch attached :: rest => do
      let group ← misuse (readGroup switch attached)
      match group.last, nextOperand? rest with
      | some (valued, none), none => .error (.misused (.needsValue valued))
      | some (_, none), some path => do
          let next ← group.switches.foldlM Reading.turnOn r
          readArguments (next.useRules path) (rest.drop 1)
      | some (_, some path), _ => do
          let next ← group.switches.foldlM Reading.turnOn r
          readArguments (next.useRules path) rest
      | none, _ => do
          let next ← group.switches.foldlM Reading.turnOn r
          readArguments next rest
termination_by arguments => arguments.length
decreasing_by all_goals simp only [List.length_cons, List.length_drop]; omega

def readOptions (arguments : List String) : Except Stop Options := do
  let classified ← misuse (classifyAll arguments)
  let r ← readArguments ⟨.none, []⟩ classified
  if r.unused.isEmpty then return r.options
  else .error (.misused (.unrecognized r.unused))

end Stepwise.CommandLine
