import Stepwise.Proofs.Number.Numeral
import Stepwise.Session.Script

/-!
The wording of answers. Those to commands to the session are told from failures by two words, and
a name, a path or a rule may have such a word in it; those to commands on the worksheet begin
otherwise than failures do.
-/

namespace Stepwise

namespace Text

theorem occurs_iff (part cs : List Char) : occurs part cs = true ↔ part <:+: cs := by
  induction cs with
  | nil => simp [occurs]
  | cons c cs ih => rw [occurs, Bool.or_eq_true, ih, List.isPrefixOf_iff_prefix, List.infix_cons_iff]

theorem isInfix_around {word before after : List Char} {c : Char} (absent : c ∉ word) :
    word <:+: before ++ c :: after ↔ word <:+: before ∨ word <:+: after := by
  constructor
  · rintro ⟨left, right, whole⟩
    rcases List.append_eq_append_iff.mp whole with ⟨more, rfl, _⟩ | ⟨more, split, rest⟩
    · exact Or.inl ⟨left, more, rfl⟩
    · rcases List.append_eq_append_iff.mp split with ⟨start, rfl, rfl⟩ | ⟨start, rfl, rfl⟩
      · cases more with
        | nil => exact Or.inl ⟨left, [], by simp⟩
        | cons d more =>
            obtain rfl := (List.cons.inj rest).1
            exact absurd (by simp) absent
      · cases start with
        | nil =>
            cases word with
            | nil => exact Or.inl (List.nil_infix)
            | cons d word =>
                obtain rfl := (List.cons.inj rest).1
                exact absurd (by simp) absent
        | cons d start => exact Or.inr ⟨start, right, by simpa using (List.cons.inj rest).2.symm⟩
  · rintro (left | right)
    · exact left.trans (List.infix_append' [] before _)
    · exact right.trans ⟨before ++ [c], [], by simp⟩

theorem isInfix_between {word separator : List Char} (nonempty : word ≠ [])
    (separates : separator ≠ []) (absent : ∀ c ∈ separator, c ∉ word) (before after : List Char) :
    word <:+: before ++ (separator ++ after) ↔ word <:+: before ∨ word <:+: after := by
  induction separator generalizing before with
  | nil => exact absurd rfl separates
  | cons c separator ih =>
      rw [List.cons_append, isInfix_around (absent c (by simp))]
      cases separator with
      | nil => rfl
      | cons d separator =>
          have within := ih (by simp) (fun e member => absent e (by simp [member])) []
          rw [List.nil_append, List.infix_nil] at within
          rw [within, or_iff_right nonempty]

end Text

namespace Script

def alarms : List String := ["Error", "Unknown"]

theorem soundsFailed_iff (text : String) :
    soundsFailed text = true ↔ ∃ word ∈ alarms, word.toList <:+: text.toList := by
  simp [soundsFailed, alarms, Text.occurs_iff]

theorem soundsFailed_of_start {first : String} (sounds : soundsFailed first = true)
    (rest : String) : soundsFailed (first ++ rest) = true := by
  rw [soundsFailed_iff] at sounds ⊢
  obtain ⟨word, member, occurs⟩ := sounds
  refine ⟨word, member, occurs.trans ?_⟩
  rw [String.toList_append]
  exact (List.prefix_append _ _).isInfix

theorem soundsFailed_append {separator : String} (apart : separator ∈ [" ", ", ", "\n"])
    (first second : String) :
    soundsFailed (first ++ separator ++ second) = (soundsFailed first || soundsFailed second) := by
  have absent : ∀ word ∈ alarms, separator.toList.all (fun c => c ∉ word.toList) = true := by
    simp only [List.mem_cons, List.not_mem_nil, or_false] at apart
    rcases apart with rfl | rfl | rfl
    all_goals simp [alarms]
  have separates : separator.toList ≠ [] := by
    simp only [List.mem_cons, List.not_mem_nil, or_false] at apart
    rcases apart with rfl | rfl | rfl
    all_goals simp
  have nonempty : ∀ word ∈ alarms, word.toList ≠ [] := by simp [alarms]
  rw [Bool.eq_iff_iff, Bool.or_eq_true, soundsFailed_iff, soundsFailed_iff, soundsFailed_iff,
    ← exists_or]
  refine exists_congr fun word => ?_
  rw [← and_or_left]
  refine and_congr_right fun member => ?_
  rw [String.toList_append, String.toList_append, List.append_assoc,
    Text.isInfix_between (nonempty word member) separates (by simpa using absent word member)]

theorem soundsFailed_plain {text : String}
    (plain : text ∈ ["", "(none)", "Parameters:", "No rules loaded", "Loaded", "rules", "from",
      "Usage: :load FILENAME"]) : soundsFailed text = false := by
  revert text
  decide +kernel

theorem soundsFailed_alarming {text : String}
    (alarming : text ∈ ["Error loading ", "Unknown command: ",
      "Unknown command. Type :help for help."]) : soundsFailed text = true := by
  revert text
  decide +kernel

theorem soundsFailed_empty : soundsFailed "" = false := soundsFailed_plain (by simp)

theorem soundsFailed_joined {separator : String} (apart : separator ∈ [" ", ", ", "\n"])
    (texts : List String) :
    soundsFailed (Text.joined separator texts) = texts.any soundsFailed := by
  induction texts with
  | nil => exact soundsFailed_empty
  | cons first texts ih =>
      cases texts with
      | nil => simp [Text.joined]
      | cons second rest =>
          rw [List.any_cons, ← ih, ← soundsFailed_append apart]
          rfl

theorem soundsFailed_lines (lines : List String) :
    soundsFailed (Text.joined "" (lines.map fun line => line ++ "\n")) =
      lines.any soundsFailed := by
  have feed : ∀ line rest : String, soundsFailed (line ++ "\n" ++ rest) =
      (soundsFailed line || soundsFailed rest) :=
    soundsFailed_append (by simp)
  induction lines with
  | nil => exact soundsFailed_empty
  | cons first lines ih =>
      cases lines with
      | nil => simpa [Text.joined, soundsFailed_empty] using feed first ""
      | cons second rest =>
          rw [List.any_cons, ← ih, ← feed, List.map_cons, List.map_cons, Text.joined,
            String.append_empty]
          simp

theorem soundsFailed_number (n : Nat) : soundsFailed (toString n) = false := by
  have letters : ∀ word ∈ alarms, word.toList.any (fun c => !c.isDigit) = true := by simp [alarms]
  rw [Bool.eq_false_iff, ne_eq, soundsFailed_iff]
  rintro ⟨word, member, occurs⟩
  obtain ⟨c, inWord, letter⟩ := List.any_eq_true.mp (letters word member)
  have digit := Literal.isDigit_of_mem_toString (occurs.subset inWord)
  simp [digit] at letter

end Script

/-! Commands to the session. -/

open Script (soundsFailed)

/-- The command is not known, or loads what cannot be loaded. -/
def SessionCommand.Fails (files : Files) : SessionCommand → Prop
  | .empty | .unknown _ => True
  | .load path => path ≠ "" ∧ ∃ cause, (RuleSet.load files path).result = .ok (.error cause)
  | _ => False

/-- The command is carried out, and a name, a path or a rule in the answer has a word in it that
failures are told by. -/
def SessionCommand.IsMisheard (files : Files) (s : Session) : SessionCommand → Prop
  | .parameters => ∃ name ∈ s.parameters, soundsFailed name = true
  | .declare names => ∃ name ∈ (s.declare names).parameters, soundsFailed name = true
  | .load path =>
      (∃ rules, (RuleSet.load files path).result = .ok (.ok rules)) ∧ soundsFailed path = true
  | .rules => ∃ entry ∈ s.rules.listing, soundsFailed entry = true
  | _ => False

namespace Session

variable {files : Files} {s : Session}

theorem soundsFailed_parametersText (names : List String) :
    soundsFailed (parametersText names) = true ↔ ∃ name ∈ names, soundsFailed name = true := by
  have head : soundsFailed "Parameters:" = false := Script.soundsFailed_plain (by simp)
  have whole : parametersText names = "Parameters:" ++ " " ++ Text.joined ", " names := rfl
  rw [whole, Script.soundsFailed_append (by simp), Script.soundsFailed_joined (by simp), head,
    Bool.false_or, List.any_eq_true]

theorem soundsFailed_rulesText (rules : RuleSet) :
    soundsFailed (rulesText rules) = true ↔ ∃ entry ∈ rules.listing, soundsFailed entry = true := by
  unfold rulesText
  split
  · rename_i empty
    have none : soundsFailed "No rules loaded" = false := Script.soundsFailed_plain (by simp)
    simp [none, RuleSet.listing, List.isEmpty_iff.mp empty]
  · rw [Script.soundsFailed_joined (by simp), List.any_eq_true]

theorem soundsFailed_loaded (count : Nat) (path : String) :
    soundsFailed ("Loaded " ++ toString count ++ " rules from " ++ path) = soundsFailed path := by
  have words : soundsFailed "Loaded" = false ∧ soundsFailed "rules" = false ∧
      soundsFailed "from" = false :=
    ⟨Script.soundsFailed_plain (by simp), Script.soundsFailed_plain (by simp),
      Script.soundsFailed_plain (by simp)⟩
  have whole : "Loaded " ++ toString count ++ " rules from " ++ path =
      "Loaded" ++ " " ++ toString count ++ " " ++ "rules" ++ " " ++ "from" ++ " " ++ path := by
    have first : "Loaded " = "Loaded" ++ " " := rfl
    have middle : " rules from " = " " ++ ("rules" ++ (" " ++ ("from" ++ " "))) := rfl
    rw [first, middle]
    simp only [String.append_assoc]
  rw [whole]
  simp only [Script.soundsFailed_append (List.mem_cons_self (a := " ") (l := [", ", "\n"])),
    Script.soundsFailed_number, words, Bool.or_false, Bool.false_or]

theorem soundsFailed_report (path : String) (cause : LoadFault) :
    soundsFailed (cause.report path) = true := by
  have word : soundsFailed "Error loading " = true := Script.soundsFailed_alarming (by simp)
  change soundsFailed ("Error loading " ++ path ++ ": " ++ cause.message) = true
  simp only [String.append_assoc]
  exact Script.soundsFailed_of_start word _

theorem soundsFailed_unknown (name : String) : soundsFailed (unknownCommandText name) = true := by
  have word : soundsFailed "Unknown command: " = true := Script.soundsFailed_alarming (by simp)
  have whole : unknownCommandText name =
      "Unknown command: " ++ (name ++ ". Type :help for help.") := String.append_assoc
  rw [whole]
  exact Script.soundsFailed_of_start word _

theorem soundsFailed_helpText : soundsFailed helpText = false := by
  refine (Script.soundsFailed_lines helpLines).trans ?_
  decide +kernel

/-- What the command is answered with sounds like a failure when it is one, and when it is
misheard. -/
theorem soundsFailed_control (command : SessionCommand) {said : Option String}
    (answered : (s.control files command).result = .ok said) :
    (∃ text ∈ said, soundsFailed text = true) ↔
      command.Fails files ∨ command.IsMisheard files s := by
  have told : ∀ text : String, Except.ok (some text) = (.ok said : Except Failure _) →
      ((∃ text ∈ said, soundsFailed text = true) ↔ soundsFailed text = true) := by
    intro text same
    obtain rfl := Except.ok.inj same
    simp
  cases command with
  | empty =>
      have sounds : soundsFailed "Unknown command. Type :help for help." = true :=
        Script.soundsFailed_alarming (by simp)
      rw [told _ answered]
      simp [SessionCommand.Fails, sounds]
  | help =>
      rw [told helpText answered, soundsFailed_helpText]
      simp [SessionCommand.Fails, SessionCommand.IsMisheard]
  | quit =>
      obtain rfl := Except.ok.inj answered
      simp [SessionCommand.Fails, SessionCommand.IsMisheard]
  | parameters =>
      have none : soundsFailed "(none)" = false := Script.soundsFailed_plain (by simp)
      rw [told _ answered, soundsFailed_parametersText]
      simp only [SessionCommand.Fails, SessionCommand.IsMisheard, false_or]
      split
      · rename_i empty
        simp [none, List.isEmpty_iff.mp empty]
      · rfl
  | declare names =>
      rw [told _ answered, soundsFailed_parametersText]
      simp [SessionCommand.Fails, SessionCommand.IsMisheard]
  | load path =>
      unfold control at answered
      dsimp only at answered
      split at answered
      · rename_i none
        have usage : soundsFailed "Usage: :load FILENAME" = false :=
          Script.soundsFailed_plain (by simp)
        rw [told _ answered, usage]
        simp [SessionCommand.Fails, SessionCommand.IsMisheard, none, Script.soundsFailed_empty]
      · rename_i named
        unfold load Reply.after at answered
        dsimp only at answered
        split at answered
        · rename_i rules loaded
          split at answered
          · rw [told _ answered, soundsFailed_loaded]
            simp [SessionCommand.Fails, SessionCommand.IsMisheard, loaded]
          · exact nomatch answered
        · rename_i cause failed
          rw [told _ answered, soundsFailed_report]
          simp [SessionCommand.Fails, named, failed]
        · simp at answered
  | rules =>
      rw [told _ answered, soundsFailed_rulesText]
      simp [SessionCommand.Fails, SessionCommand.IsMisheard]
  | unknown name =>
      rw [told _ answered, soundsFailed_unknown]
      simp [SessionCommand.Fails]

def SaysNoError (reply : Reply) : Prop :=
  ∀ text, reply.result = .ok (some text) → text.toList.head? ≠ some 'E'

theorem saysNoError_say (s : Session) {text : String} (other : text.toList.head? ≠ some 'E') :
    SaysNoError (.say s text) := by
  intro said same
  obtain rfl := Option.some.inj (Except.ok.inj same)
  exact other

theorem saysNoError_refuse (s : Session) (cause : Refusal) : SaysNoError (.refuse s cause) :=
  fun _ same => nomatch same

theorem saysNoError_fail (s : Session) (fault : Fault) : SaysNoError (.fail s fault) :=
  fun _ same => nomatch same

theorem SaysNoError.after {reply : Reply} (noError : SaysNoError reply) (notices : List Notice) :
    SaysNoError (reply.after notices) := noError

theorem saysNoError_andThen {step : Logged Session} {next : Session → Reply}
    (later : ∀ moved, SaysNoError (next moved)) : SaysNoError (.andThen s step next) := by
  unfold Reply.andThen
  split
  · exact (later _).after _
  · exact (saysNoError_fail _ _).after _

theorem saysNoError_trying {α : Type} {attempt : Attempt α} {next : α → Reply}
    (later : ∀ value, SaysNoError (next value)) : SaysNoError (s.trying attempt next) := by
  unfold trying
  split
  · exact later _
  · exact saysNoError_fail _ _

theorem saysNoError_tell (actions : List Action) {text : String}
    (other : text.toList.head? ≠ some 'E') : SaysNoError (s.tell actions text) :=
  saysNoError_trying fun _ => saysNoError_say s other

theorem saysNoError_withSequence {next : Workable → Reply}
    (later : ∀ worked, SaysNoError (next worked)) : SaysNoError (s.withSequence next) := by
  unfold withSequence
  split
  · exact later _
  · exact saysNoError_refuse _ _

theorem head_number (n : Nat) (rest : String) :
    (toString n ++ rest).toList.head? ≠ some 'E' := by
  have digits : ∀ c ∈ (toString n).toList, c.isDigit = true :=
    fun c => Literal.isDigit_of_mem_toString
  have nonempty : (toString n).toList ≠ [] := Literal.toList_toString n ▸ Nat.toDigits_ne_nil
  obtain ⟨c, more, chars⟩ := List.exists_cons_of_ne_nil nonempty
  rw [String.toList_append, chars, List.cons_append, List.head?_cons]
  intro same
  have digit := digits c (chars ▸ List.mem_cons_self)
  rw [Option.some.inj same] at digit
  exact absurd digit (by decide)

theorem head_joined (separator : String) {texts : List String}
    (numbered : ∀ text ∈ texts.head?, ∃ (n : Nat) (rest : String), text = toString n ++ rest) :
    (Text.joined separator texts).toList.head? ≠ some 'E' := by
  cases texts with
  | nil => simp [Text.joined]
  | cons first texts =>
      obtain ⟨n, rest, rfl⟩ := numbered first rfl
      cases texts with
      | nil => exact head_number n rest
      | cons second texts =>
          rw [Text.joined, String.append_assoc, String.append_assoc]
          · exact head_number n _
          · simp

theorem saysNoError_reportLast (s : Session) : SaysNoError s.reportLast := by
  refine saysNoError_andThen fun stored => ?_
  split
  · exact saysNoError_refuse _ _
  · split
    · refine saysNoError_tell _ ?_
      rw [Line.numbered, String.append_assoc]
      exact head_number _ _
    · exact saysNoError_fail _ _

theorem saysNoError_enter (s : Session) (index : Nat) : SaysNoError (s.enter index) := by
  refine saysNoError_andThen fun moved => ?_
  split
  · refine saysNoError_say _ ?_
    simp
  · exact saysNoError_refuse _ _

theorem saysNoError_afterRun (s : Session) (run : Run Bool) (refusal : Refusal) :
    SaysNoError (s.afterRun run refusal) := by
  refine SaysNoError.after ?_ _
  split
  · exact saysNoError_reportLast _
  · exact saysNoError_refuse _ _
  · exact saysNoError_fail _ _

theorem saysNoError_work (s : Session) (command : WorksheetCommand) :
    SaysNoError (s.work command) := by
  cases command with
  | introduce written => exact saysNoError_trying fun e => saysNoError_enter _ _
  | introduceLabelled label =>
      change SaysNoError (s.introduceLabelled label)
      unfold introduceLabelled
      split
      · exact saysNoError_enter _ _
      · exact saysNoError_refuse _ _
  | switchTo number =>
      refine saysNoError_trying fun index => ?_
      split
      · exact saysNoError_enter _ _
      · exact saysNoError_refuse _ _
  | list =>
      refine saysNoError_withSequence fun worked => saysNoError_tell _ ?_
      refine head_joined "\n" fun text first => ?_
      cases lines : worked.history with
      | nil => simp [lines, History.formattedFrom] at first
      | cons line rest =>
          rw [lines] at first
          obtain rfl := Option.some.inj first
          simp only [Line.formatted, Line.numbered, String.append_assoc]
          exact ⟨0, _, rfl⟩
  | suggest addresses =>
      refine saysNoError_withSequence fun worked => saysNoError_trying fun selection =>
        saysNoError_trying fun available => saysNoError_tell _ ?_
      split
      · simp
      · refine head_joined "\n" fun text first => ?_
        cases available with
        | nil => simp [suggestionTexts] at first
        | cons suggestion rest =>
            obtain rfl := Option.some.inj first
            simp only [String.append_assoc]
            exact ⟨0, _, rfl⟩
  | take number addresses =>
      exact saysNoError_withSequence fun worked => saysNoError_trying fun selection =>
        saysNoError_trying fun choice => saysNoError_afterRun _ _ _
  | applyRule id address =>
      exact saysNoError_withSequence fun worked => saysNoError_trying fun place =>
        saysNoError_afterRun _ _ _
  | label name number =>
      refine saysNoError_withSequence fun worked => saysNoError_trying fun line => ?_
      split
      · refine saysNoError_trying fun labelled => saysNoError_andThen fun stored =>
          saysNoError_say _ ?_
        simp
      · exact saysNoError_refuse _ _
  | reset number =>
      refine saysNoError_withSequence fun worked => saysNoError_trying fun line => ?_
      split
      · exact saysNoError_reportLast _
      · exact saysNoError_refuse _ _
  | misused form => exact saysNoError_refuse _ _
  | unknown name => exact saysNoError_refuse _ _

end Session

end Stepwise
