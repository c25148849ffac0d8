import Stepwise.Proofs.Session.Reading
import Stepwise.Proofs.Session.Script
import Stepwise.Proofs.Session.Standing

/-!
Labels. The named lines of a session are registered, so that naming a line registers no more than
that line, and a derivation that is begun from a name has the expression that was registered last
under it.
-/

namespace Stepwise

theorem Settings.AutoRun.unnamed {settings : Settings} {e last : Expr} {lines : List Line}
    (run : settings.AutoRun e lines last) : ∀ line ∈ lines, line.name? = none := by
  induction run with
  | done => simp
  | step next _ ih =>
      obtain ⟨_, _, _, _, _, _, _, rfl⟩ := next
      exact List.forall_mem_cons.mpr ⟨rfl, ih⟩

theorem Settings.push_isRegistered {settings : Settings} {history : History}
    {labels : List (String × Expr)} (registered : history.IsRegistered labels) (action : Action)
    (e : Expr) : (settings.push history action e).history.IsRegistered labels := by
  obtain ⟨added, last, grown, _, run, _⟩ := settings.push_runs history action e
  have unnamed := run.unnamed
  rw [grown]
  intro line member label named
  rcases List.mem_append.mp member with old | new
  · exact registered line old label named
  · rcases List.mem_cons.mp new with rfl | later
    · simp [Line.name?, Line.byUser] at named
    · simp [unnamed line later] at named

namespace Session

/-- The named lines are registered, each pair of a name and an expression once. -/
structure Registered (s : Session) : Prop where
  distinct : s.worksheet.settings.labels.Nodup
  stored : ∀ history ∈ s.worksheet.sequences, history.IsRegistered s.worksheet.settings.labels
  atHand : ∀ index history, s.current = some (index, history) →
    history.IsRegistered s.worksheet.settings.labels

section

variable {s : Session}

theorem isRegistered_introduced (source : Option String) (e : Expr)
    (labels : List (String × Expr)) :
    History.IsRegistered [.byUser (.introduce source) e] labels := by
  simp [History.IsRegistered, Line.name?, Line.byUser]

theorem Registered.hold (registered : s.Registered) {index : Nat} {history : History}
    (known : history.IsRegistered s.worksheet.settings.labels) :
    (s.hold index history).Registered where
  distinct := registered.distinct
  stored := registered.stored
  atHand := forall_current_hold known

theorem Registered.put (registered : s.Registered) (index : Nat) (next : History) :
    (s.put index next).Registered := by
  have published := Worksheet.publish_isPublished s.worksheet.settings next
  refine ⟨published.distinct registered.distinct, forall_stored_put ?_ published.registered,
    forall_current_hold published.registered⟩
  exact fun other member => (registered.stored other member).mono published.kept.subset

theorem Registered.settled (registered : s.Registered) : s.settled.Registered := by
  unfold Session.settled
  split
  · exact registered
  · exact registered.put _ _

theorem Registered.begun (registered : s.Registered) (source : Option String) (e : Expr) :
    (s.started source e).Registered where
  distinct := registered.distinct
  stored := forall_stored_started registered.stored (isRegistered_introduced source e _)
  atHand := registered.atHand

theorem Registered.change {request : Request} {next : Session}
    {result : Except Failure (Option String)} (registered : s.Registered)
    (change : s.Change request next result) : next.Registered := by
  cases change with
  | answered | misfit => exact ⟨registered.distinct, registered.stored, registered.atHand⟩
  | declared names =>
      exact ⟨registered.distinct, registered.stored, current_declare s names ▸ registered.atHand⟩
  | loaded =>
      exact ⟨registered.distinct, registered.stored, current_useRules s _ ▸ registered.atHand⟩
  | @opened source e =>
      exact (registered.begun source e).settled.hold (isRegistered_introduced _ _ _)
  | turned _ found =>
      exact registered.settled.hold (registered.settled.stored _ (List.mem_of_getElem? found))
  | saved | unsaid => exact registered.put _ _
  | refused => exact registered
  | broken _ => exact registered
  | interrupted _ atHand =>
      exact registered.hold (Settings.push_isRegistered (registered.atHand _ _ atHand) _ _)

theorem Reached.registered {begins loads : RuleSet → Prop} (reached : s.Reached begins loads) :
    s.Placed ∧ s.Registered := by
  induction reached with
  | start started _ =>
      obtain ⟨rules, rfl⟩ := fresh_of_start started
      exact ⟨(sound_ofRules rules).placed, List.nodup_nil,
        by simp [ofRules, Worksheet.ofSettings], nofun⟩
  | @line s files line _ _ _ ih =>
      have change := answers_perform ih.1 files (Request.read line)
      exact ⟨ih.1.change change, ih.2.change change⟩

/-! Naming a line, and beginning from a name. -/

theorem respond_read {line : String} {request : Request} (files : Files)
    (read : Request.read line = request) :
    (s.respond files line).session = (s.perform files request).session := by
  rw [← read]
  rfl

theorem label_eq (placed : s.Placed) {index place : Nat} {history : History} {line : Line}
    (atHand : s.current = some (index, history)) (found : history[place]? = some line)
    {number : String} (read : readNumber number = .ok place) (name : String) :
    (s.label name (some number)).session =
        s.put index (history.set place { line with label := some name }) ∧
      (s.label name (some number)).result =
        .ok (some ("Labelled line " ++ toString place ++ " as " ++ name)) := by
  have inside := (List.getElem?_eq_some_iff.mp found).1
  have named := History.withLabel_eq_ok found (some name)
  have stores := commit_result (rework_placed placed atHand (.label named))
  simp only [label, withSequence, placed.paired.sequence_eq atHand, lineNumber, trying, read, named,
    placed.paired.rework_eq atHand]
  rw [if_pos (by omega), Reply.andThen, stores]
  exact ⟨rfl, rfl⟩

theorem respond_label (placed : s.Placed) {index place : Nat} {history : History} {line : Line}
    (atHand : s.current = some (index, history)) (found : history[place]? = some line)
    {name number written : String}
    (asks : Request.read written = .worksheet (.label name (some number)))
    (read : readNumber number = .ok place) (files : Files) :
    (s.respond files written).session =
        s.put index (history.set place { line with label := some name }) ∧
      (s.respond files written).said =
        .ok (some ("Labelled line " ++ toString place ++ " as " ++ name)) := by
  obtain ⟨session, result⟩ := label_eq placed atHand found read name
  exact ⟨(respond_read files asks).trans session, (said_eq asks).trans (congrArg answerOf result)⟩

theorem label_refused (placed : s.Placed) (name : String) {number : String} {place : Nat}
    (read : readNumber number = .ok place)
    (missing : ∀ index history, s.current = some (index, history) → history.length ≤ place) :
    ∃ cause, (s.label name (some number)).result = .error (.refused cause) := by
  unfold label withSequence
  cases atHand : s.current with
  | none =>
      rw [placed.paired.sequence_eq_none atHand]
      exact ⟨_, rfl⟩
  | some current =>
      have outside := missing current.1 current.2 atHand
      rw [placed.paired.sequence_eq atHand]
      simp only [lineNumber, trying, read]
      rw [if_neg (by omega)]
      exact ⟨_, rfl⟩

theorem settled_of_stored (placed : s.Placed) (registered : s.Registered)
    (stored : ∀ index history, s.current = some (index, history) →
      s.worksheet.sequences[index]? = some history) : s.settled = s := by
  unfold settled
  split
  · rfl
  · rename_i index history atHand
    obtain ⟨inside, same⟩ := List.getElem?_eq_some_iff.mp (stored index history atHand)
    have published := Worksheet.publish_of_registered (registered.atHand index history atHand)
    have unset : s.worksheet.sequences.set index history = s.worksheet.sequences := by
      rw [← same, List.set_getElem_self]
    rw [put, published, unset]
    exact placed.paired.hold_eq atHand

theorem opened_of_stored (placed : s.Placed) (registered : s.Registered)
    (stored : ∀ index history, s.current = some (index, history) →
      s.worksheet.sequences[index]? = some history) (source : Option String) (e : Expr) :
    s.opened source e =
      (s.started source e).hold s.worksheet.sequences.length [.byUser (.introduce source) e] := by
  have begun : (s.started source e).settled = s.started source e := by
    refine settled_of_stored (started_placed placed source e) (registered.begun source e)
      fun index history atHand => ?_
    have found := stored index history atHand
    exact (List.getElem?_append_left (List.getElem?_eq_some_iff.mp found).1).trans found
  rw [opened, begun]

theorem introduceLabelled_session (placed : s.Placed) {name : String} {e : Expr}
    (known : s.worksheet.settings.labelled name = .ok e) :
    (s.introduceLabelled name).session = s.opened (some name) e := by
  obtain ⟨said, session, _⟩ := begin_eq placed (some name) e
  rw [introduceLabelled, Worksheet.introduceLabelled, known]
  exact session

/-- A derivation of this one line is begun, after all others, and nothing is registered. -/
structure Begins (s next : Session) (line : Line) : Prop where
  labels : next.worksheet.settings.labels = s.worksheet.settings.labels
  sequences : next.worksheet.sequences = s.worksheet.sequences ++ [[line]]
  current : next.current = some (s.worksheet.sequences.length, [line])

theorem introduceLabelled_begins (placed : s.Placed) (registered : s.Registered)
    (stored : ∀ index history, s.current = some (index, history) →
      s.worksheet.sequences[index]? = some history) {name : String} {e : Expr}
    (known : s.worksheet.settings.labelled name = .ok e) :
    s.Begins (s.introduceLabelled name).session (.byUser (.introduce (some name)) e) := by
  rw [introduceLabelled_session placed known, opened_of_stored placed registered stored]
  exact ⟨rfl, rfl, rfl⟩

theorem errorText_ne (cause : Refusal) {text : String} (other : text.toList.head? ≠ some 'E') :
    errorText cause ≠ text := by
  rintro rfl
  simp [errorText] at other

theorem exists_line_of_labelled (placed : s.Placed) {name number : String} {place : Nat}
    {files : Files}
    {written : String} (asks : Request.read written = .worksheet (.label name (some number)))
    (read : readNumber number = .ok place)
    (succeeded : (s.respond files written).said =
      .ok (some ("Labelled line " ++ toString place ++ " as " ++ name))) :
    ∃ index history line, s.current = some (index, history) ∧ history[place]? = some line := by
  by_contra absent
  have missing : ∀ index history, s.current = some (index, history) → history.length ≤ place := by
    intro index history atHand
    by_contra inside
    exact absent ⟨index, history, _, atHand, List.getElem?_eq_getElem (Nat.lt_of_not_le inside)⟩
  obtain ⟨cause, refused⟩ := label_refused placed name read missing
  have answered : (s.respond files written).said = .ok (some (errorText cause)) :=
    (said_eq asks).trans (congrArg answerOf refused)
  rw [answered] at succeeded
  exact errorText_ne cause (by simp) (Option.some.inj (Except.ok.inj succeeded))

open Text (IsWord) in
/-- What a line is named stands for its expression from then on, unless the two were registered
before; then the register stays as it is, and the name goes on to stand for what was registered
last. -/
theorem from_begins_named {begins loads : RuleSet → Prop} (reached : s.Reached begins loads)
    {name number : String} {place : Nat} (word : IsWord name) (numeral : IsWord number)
    (digits : number.toList.all Text.isDigitLike = true) (read : readNumber number = .ok place)
    (files later : Files)
    (succeeded : (s.respond files ("label " ++ name ++ " " ++ number)).said =
      .ok (some ("Labelled line " ++ toString place ++ " as " ++ name))) :
    ∃ index history line e, s.current = some (index, history) ∧ history[place]? = some line ∧
      (s.respond files ("label " ++ name ++ " " ++ number)).session.Begins
        ((s.respond files ("label " ++ name ++ " " ++ number)).session.respond later
          ("from " ++ name)).session
        (.byUser (.introduce (some name)) e) ∧
      s.worksheet.settings.labels.Nodup ∧
      ((name, line.expr) ∉ s.worksheet.settings.labels → e = line.expr ∧
        (s.respond files ("label " ++ name ++ " " ++ number)).session.worksheet.settings.labels =
          s.worksheet.settings.labels ++ [(name, line.expr)]) ∧
      ((name, line.expr) ∈ s.worksheet.settings.labels →
        IsLatest s.worksheet.settings.labels name e ∧
        (s.respond files ("label " ++ name ++ " " ++ number)).session.worksheet.settings.labels =
          s.worksheet.settings.labels) := by
  obtain ⟨placed, registered⟩ := reached.registered
  have asks := Request.read_label word numeral digits
  obtain ⟨index, history, line, atHand, found⟩ := exists_line_of_labelled placed asks read succeeded
  have named : name ≠ "" := fun empty => word.1 (empty ▸ rfl)
  have moved := (respond_label placed atHand found asks read files).1
  have published := Worksheet.publish_named (registered.atHand index history atHand) found named
  obtain ⟨e, latest, fresh, known⟩ := s.worksheet.settings.labelled_register name line.expr
  have register : (s.respond files ("label " ++ name ++ " " ++ number)).session.worksheet.settings =
      s.worksheet.settings.register name line.expr := by
    rw [moved]
    exact published
  rw [register]
  refine ⟨index, history, line, e, atHand, found, ?_, registered.distinct,
    fun unknown => ⟨fresh unknown, congrArg Settings.labels
      (Worksheet.register_of_unknown fun known => unknown (of_decide_eq_true known))⟩,
    fun member => ⟨known member, congrArg Settings.labels
      (s.worksheet.settings.register_of_known (decide_eq_true member))⟩⟩
  rw [moved, respond_read later (Request.read_from word)]
  obtain ⟨inside, nonempty⟩ := placed.current index history atHand
  refine introduceLabelled_begins (placed.put atHand (by simpa using nonempty))
    (registered.put index _) (forall_current_hold (List.getElem?_set_self inside)) ?_
  rw [← published] at latest
  exact latest

end

theorem Reached.fed {begins : RuleSet → Prop} {s : Session}
    (reached : s.Reached begins fun _ => True) (files : Files) (lines : List String)
    (noLoad : ∀ line ∈ lines, ∀ path, Request.read line ≠ .session (.load path)) :
    (s.fed files lines).Reached begins fun _ => True := by
  induction lines generalizing s with
  | nil => exact reached
  | cons line rest ih =>
      have first := noLoad line (by simp)
      have moved := reached.line files line (fun path loads => absurd loads (first path)) trivial
      exact ih moved fun other member => noLoad other (by simp [member])

def holding (rules : RuleSet) (labels : List (String × Expr)) (sequences : List History)
    (index : Nat) (history : History) : Session :=
  { ofRules rules with
    worksheet := ⟨{ settingsOf rules [] with labels := labels }, sequences⟩ }.hold index history

open Stepwise.Expr

def introducedSum : Line := .byUser (.introduce none) (binary "+" (var "x") (const "0"))

def introducedEquation : Line := .byUser (.introduce none) (equation (var "x") (const "1"))

def namedSum : Line := { introducedSum with label := some "A" }

def namedEquation : Line := { introducedEquation with label := some "A" }

theorem read_lines :
    Request.read "introduce x + 0" = .worksheet (.introduce "x + 0") ∧
      Request.read "introduce x = 1" = .worksheet (.introduce "x = 1") ∧
      Request.read "label A" = .worksheet (.label "A" none) ∧
      Request.read "label A 0" = .worksheet (.label "A" (some "0")) ∧
      Request.read "from A" = .worksheet (.introduceLabelled "A") ∧
      Request.read "switch 0" = .worksheet (.switchTo "0") ∧ readNumber "0" = .ok (0 : Nat) := by
  decide +kernel

theorem no_load : ∀ line ∈ ["introduce x + 0", "label A", "introduce x = 1", "label A", "switch 0"],
    ∀ path, Request.read line ≠ .session (.load path) := by
  obtain ⟨introducing, equating, labelling, _, _, switching, _⟩ := read_lines
  simp [introducing, equating, labelling, switching]

theorem fed_two {rules : RuleSet} (context : rules.context = Context.arithmetic []) :
    (ofRules rules).fed Files.none ["introduce x + 0", "label A", "introduce x = 1"] =
      holding rules [("A", introducedSum.expr)] [[namedSum], [introducedEquation]] 1
        [introducedEquation] := by
  obtain ⟨introducing, equating, labelling, _⟩ := read_lines
  have first : ((ofRules rules).respond Files.none "introduce x + 0").session =
      holding rules [] [[introducedSum]] 0 [introducedSum] :=
    respond_introduce Files.none introducing (context ▸ Interpretation.infixed_sum)
  have second : ((holding rules [] [[introducedSum]] 0 [introducedSum]).respond Files.none
      "label A").session =
        holding rules [("A", introducedSum.expr)] [[namedSum]] 0 [namedSum] := by
    rw [respond_read Files.none labelling]
    rfl
  have third : ((holding rules [("A", introducedSum.expr)] [[namedSum]] 0 [namedSum]).respond
      Files.none "introduce x = 1").session = holding rules [("A", introducedSum.expr)]
        [[namedSum], [introducedEquation]] 1 [introducedEquation] := by
    have parsed : Parse.infixed rules.context "x = 1" = .ok introducedEquation.expr :=
      context ▸ infixed_equation
    rw [respond_read Files.none equating]
    change (Session.introduce _ "x = 1").session = _
    rw [introduce, show Parse.infixed (holding rules _ _ _ _).worksheet.settings.context "x = 1" =
      .ok introducedEquation.expr from parsed]
    rfl
  simp only [fed, List.foldl_cons, List.foldl_nil, first, second, third]

/-- The name goes over to the line of the other derivation. -/
theorem from_begins_named_second : ∃ rules : RuleSet, RuleSet.algebra.result = .ok rules ∧
    ∃ s : Session,
      s = (ofRules rules).fed Files.none ["introduce x + 0", "label A", "introduce x = 1"] ∧
      s.worksheet.settings.labels = [("A", introducedSum.expr)] ∧
      s.current = some (1, [introducedEquation]) ∧
      (s.respond Files.none "label A 0").said = .ok (some "Labelled line 0 as A") ∧
      (s.respond Files.none "label A 0").session.Begins
        ((s.respond Files.none "label A 0").session.respond Files.none "from A").session
        (.byUser (.introduce (some "A")) introducedEquation.expr) := by
  obtain ⟨rules, loaded, context, _, started⟩ := start_algebra
  have fresh : Reached (fun _ => True) (fun _ => True) (ofRules rules) := .start started trivial
  have reached := fresh.fed Files.none ["introduce x + 0", "label A", "introduce x = 1"]
    fun line member => no_load line (List.mem_of_mem_take (i := 3) member)
  have held := fed_two context
  rw [held] at reached
  obtain ⟨_, _, _, read, _, _, zero⟩ := read_lines
  have said := (respond_label reached.registered.1 rfl
    (show [introducedEquation][0]? = some introducedEquation from rfl) read zero Files.none).2
  refine ⟨rules, loaded, _, held.symm, rfl, rfl, said, ?_⟩
  have name : Text.IsWord "A" := by
    simp [Text.IsWord, Text.isBlank, Text.inRanges, Text.blankRanges]
  have numeral : Text.IsWord "0" := by
    simp [Text.IsWord, Text.isBlank, Text.inRanges, Text.blankRanges]
  have digits : "0".toList.all Text.isDigitLike = true := by
    simp [Text.isDigitLike, Text.isDecimalDigit, Text.digitValue?]
  obtain ⟨index, history, line, e, atHand, found, begins, _, fresh, _⟩ :=
    from_begins_named reached name numeral digits zero Files.none Files.none said
  obtain ⟨rfl, rfl⟩ := Prod.mk.inj (Option.some.inj atHand)
  obtain rfl := Option.some.inj found
  obtain ⟨rfl, _⟩ := fresh
    (show ("A", introducedEquation.expr) ∉ [("A", introducedSum.expr)] by decide)
  exact begins

theorem fed_named {rules : RuleSet} (context : rules.context = Context.arithmetic []) :
    (ofRules rules).fed Files.none
        ["introduce x + 0", "label A", "introduce x = 1", "label A", "switch 0"] =
      holding rules [("A", introducedSum.expr), ("A", introducedEquation.expr)]
        [[namedSum], [namedEquation]] 0 [namedSum] := by
  obtain ⟨_, _, labelling, _, _, switching, zero⟩ := read_lines
  have fourth : ((holding rules [("A", introducedSum.expr)] [[namedSum], [introducedEquation]] 1
      [introducedEquation]).respond Files.none "label A").session =
        holding rules [("A", introducedSum.expr), ("A", introducedEquation.expr)]
          [[namedSum], [namedEquation]] 1 [namedEquation] := by
    rw [respond_read Files.none labelling]
    rfl
  have fifth : ((holding rules [("A", introducedSum.expr), ("A", introducedEquation.expr)]
      [[namedSum], [namedEquation]] 1 [namedEquation]).respond Files.none "switch 0").session =
        holding rules [("A", introducedSum.expr), ("A", introducedEquation.expr)]
          [[namedSum], [namedEquation]] 0 [namedSum] := by
    rw [respond_read Files.none switching]
    change (Session.switchTo _ "0").session = _
    rw [switchTo, zero]
    rfl
  change ((ofRules rules).fed Files.none ["introduce x + 0", "label A", "introduce x = 1"]).fed
    Files.none ["label A", "switch 0"] = _
  rw [fed_two context, fed, List.foldl_cons, fourth, List.foldl_cons, fifth]
  rfl

/-- The first line is named again, and its name goes on to stand for the second. -/
theorem from_begins_other : ∃ rules : RuleSet, RuleSet.algebra.result = .ok rules ∧
    ∃ s : Session,
      s = (ofRules rules).fed Files.none
        ["introduce x + 0", "label A", "introduce x = 1", "label A", "switch 0"] ∧
      s.Reached (fun _ => True) (fun _ => True) ∧ s.current = some (0, [namedSum]) ∧
      (s.respond Files.none "label A 0").said = .ok (some "Labelled line 0 as A") ∧
      (s.respond Files.none "label A 0").session.Begins
        ((s.respond Files.none "label A 0").session.respond Files.none "from A").session
        (.byUser (.introduce (some "A")) introducedEquation.expr) ∧
      introducedEquation.expr ≠ namedSum.expr := by
  obtain ⟨rules, loaded, context, _, started⟩ := start_algebra
  have fresh : Reached (fun _ => True) (fun _ => True) (ofRules rules) := .start started trivial
  have reached := fresh.fed Files.none
    ["introduce x + 0", "label A", "introduce x = 1", "label A", "switch 0"] no_load
  have held := fed_named context
  rw [held] at reached
  obtain ⟨_, _, _, naming, beginning, _, zero⟩ := read_lines
  obtain ⟨moved, said⟩ := respond_label reached.registered.1 rfl
    (show [namedSum][0]? = some namedSum from rfl) naming zero Files.none
  refine ⟨rules, loaded, _, held.symm, reached, rfl, said, ?_, by decide⟩
  rw [moved, respond_read Files.none beginning]
  exact ⟨rfl, rfl, rfl⟩

end Session

end Stepwise
