import Stepwise.Proofs.Algebra.Suggested
import Stepwise.Proofs.Matching.Names
import Stepwise.Proofs.Meaning.Derivation
import Stepwise.Proofs.Session.Outcome

/-!
What holds of a session between two lines, where no rule is applied automatically, and what any line
leaves as it was.
-/

namespace Stepwise

theorem Action.introduces_of_suggested {settings : Settings} {e result : Expr} {target : Address}
    {action : Action} (suggested : settings.Suggested e target action result) :
    action.introduces = false := by
  cases suggested with
  | substitution => rfl
  | rule => rfl
  | algebra step => cases step <;> rfl

namespace Settings

variable {settings : Settings} {history : History}

theorem Offers.introduces (provided : settings.provider = Expr.suggest) (nonempty : history ≠ [])
    {action : Action} {e : Expr} (offers : settings.Offers history action e) :
    action.introduces = false := by
  cases offers with
  | rule => rfl
  | suggestion listed member =>
      obtain ⟨last, final⟩ := Option.ne_none_iff_exists'.mp
        (mt List.getLast?_eq_none_iff.mp nonempty)
      have newest : history.last? = some last.expr := by
        rw [History.last?, final]
        rfl
      obtain ⟨target, _, suggested⟩ := (suggestions_finds provided newest).value listed _ member
      exact Action.introduces_of_suggested suggested

theorem push_quiet (quiet : settings.catalog.auto = []) (history : History) (action : Action)
    (e : Expr) :
    settings.push history action e =
      ⟨history ++ [.byUser action (settings.normalize e)], [], .ok ()⟩ := by
  unfold push runAuto
  split
  · rfl
  · rw [quiet]
    rfl

end Settings

namespace History

/-- The first line introduces an expression, and no other line does. -/
def IsStarted (history : History) : Prop :=
  ∃ first rest, history = first :: rest ∧ first.action.introduces = true ∧
    ∀ line ∈ rest, line.action.introduces = false

variable {history : History}

theorem IsStarted.ne_nil (started : history.IsStarted) : history ≠ [] := by
  obtain ⟨first, rest, rfl, _⟩ := started
  simp

theorem isStarted_iff_actions :
    history.IsStarted ↔ ∃ rest, history.map (fun line => line.action.introduces) = true :: rest ∧
      ∀ introduces ∈ rest, introduces = false := by
  constructor
  · rintro ⟨first, rest, rfl, introduced, others⟩
    exact ⟨_, congrArg₂ List.cons introduced rfl, by simpa using others⟩
  · rintro ⟨rest, same, others⟩
    obtain ⟨first, lines, rfl, introduced, rfl⟩ := List.map_eq_cons_iff.mp same
    exact ⟨first, lines, rfl, introduced, by simpa using others⟩

theorem isStarted_introduced (source : Option String) (e : Expr) :
    IsStarted [.byUser (.introduce source) e] :=
  ⟨_, [], rfl, rfl, by simp⟩

theorem IsStarted.append (started : history.IsStarted) {line : Line}
    (plain : line.action.introduces = false) : IsStarted (history ++ [line]) := by
  obtain ⟨first, rest, rfl, introduced, others⟩ := started
  refine ⟨first, rest ++ [line], rfl, introduced, ?_⟩
  intro other member
  rcases List.mem_append.mp member with old | new
  · exact others other old
  · exact List.mem_singleton.mp new ▸ plain

theorem IsStarted.take (started : history.IsStarted) (count : Nat) :
    IsStarted (history.take (count + 1)) := by
  obtain ⟨first, rest, rfl, introduced, others⟩ := started
  exact ⟨first, rest.take count, rfl, introduced,
    fun line member => others line (List.mem_of_mem_take member)⟩

theorem IsStarted.withLabel (started : history.IsStarted) {label : Option String} {index : Int}
    {labelled : History} (named : history.withLabel label index = .ok labelled) :
    labelled.IsStarted := by
  rw [isStarted_iff_actions] at started ⊢
  rw [History.withLabel_map (fun _ _ => rfl) named]
  exact started

theorem IsStarted.reworks {settings : Settings} (quiet : settings.catalog.auto = [])
    (provided : settings.provider = Expr.suggest) (started : history.IsStarted) {next : History}
    (reworks : settings.Reworks history next) : next.IsStarted := by
  cases reworks with
  | push offers _ =>
      rw [Settings.push_quiet quiet]
      exact started.append (offers.introduces provided started.ne_nil)
  | label named => exact started.withLabel named
  | reset dropped =>
      rw [History.resetTo_eq_ok dropped]
      exact started.take _

end History

def Files.none : Files := fun path => .error (.missing path)

namespace Session

theorem Change.rules_eq {s next : Session} {request : Request}
    {result : Except Failure (Option String)} (change : s.Change request next result)
    (noLoad : ∀ path, request ≠ .session (.load path)) : next.rules = s.rules := by
  have settled : s.settled.rules = s.rules := by
    unfold Session.settled
    split <;> rfl
  cases change with
  | loaded asked _ | misfit asked _ => exact absurd asked (noLoad _)
  | @opened source e =>
      change (s.started source e).settled.rules = s.rules
      unfold Session.settled
      split <;> rfl
  | turned => exact settled
  | _ => rfl

/-- The sessions that any lines lead to from a fresh one, under conditions on the rules that it
begins with and on the rules after each line. Lines that load rules are answered. -/
inductive Reached (begins loads : RuleSet → Prop) : Session → Prop
  | start {rules : RuleSet} {s : Session} : (start rules).result = .ok s → begins s.rules →
      Reached begins loads s
  | line {s : Session} (files : Files) (line : String) : Reached begins loads s →
      (∀ path, Request.read line = .session (.load path) →
        ∃ said, (s.respond files line).said = .ok said) →
      loads (s.respond files line).session.rules →
        Reached begins loads (s.respond files line).session

theorem Reached.next {begins loads : RuleSet → Prop} {s : Session}
    (reached : s.Reached begins loads) (placed : s.Placed) (files : Files) (line : String)
    (noLoad : ∀ path, Request.read line ≠ .session (.load path)) (holds : loads s.rules) :
    (s.respond files line).session.Reached begins loads := by
  refine reached.line files line (fun path loads => absurd loads (noLoad path)) ?_
  have same := (answers_perform placed files (Request.read line)).rules_eq noLoad
  exact same ▸ holds

theorem fresh_of_start {rules : RuleSet} {s : Session} (started : (start rules).result = .ok s) :
    ∃ used, s = ofRules used := by
  unfold start at started
  split at started
  · cases loaded : RuleSet.algebra.result with
    | error fault =>
        simp [bind, Logged.andThen, loaded] at started
    | ok algebra =>
        simp only [bind, Logged.andThen, loaded] at started
        exact ⟨algebra, (Except.ok.inj started).symm⟩
  · cases fits : checkNormalization rules with
    | error fault =>
        simp [bind, Logged.andThen, Logged.ofAttempt, fits] at started
    | ok _ =>
        simp only [bind, Logged.andThen, Logged.ofAttempt, fits] at started
        exact ⟨rules, (Except.ok.inj started).symm⟩

/-- A command to the session is answered exactly if it is carried out. -/
theorem exists_result {s : Session} {files : Files} {line : String} {command : SessionCommand}
    (answered : ∃ said, (s.respond files line).said = .ok said)
    (read : Request.read line = .session command) :
    ∃ said, (s.perform files (Request.read line)).result = .ok said := by
  obtain ⟨said, same⟩ := answered
  unfold respond at same
  dsimp only at same
  split at same
  · exact ⟨_, by assumption⟩
  · rename_i cause refused
    rw [read] at refused
    exact absurd refused (control_ne_refused command cause)
  · exact nomatch same

/-! What a line leaves as it was. -/

/-- No label is lost, and no derivation but the one at hand is touched; one is added at the end if
one is begun. -/
structure Keeps (s next : Session) (begun : Bool) : Prop where
  labels : s.worksheet.settings.labels <+: next.worksheet.settings.labels
  others : ∀ index < s.worksheet.sequences.length, (∀ history, s.current ≠ some (index, history)) →
    next.worksheet.sequences[index]? = s.worksheet.sequences[index]?
  count : next.worksheet.sequences.length =
    s.worksheet.sequences.length + if begun then 1 else 0

theorem keeps_of_same {s next : Session}
    (sequences : next.worksheet.sequences = s.worksheet.sequences)
    (labels : next.worksheet.settings.labels = s.worksheet.settings.labels) :
    s.Keeps next false := by
  refine ⟨labels ▸ List.prefix_rfl, fun _ _ _ => by rw [sequences], by simp [sequences]⟩

theorem keeps_put {s : Session} {index : Nat} {history : History}
    (atHand : s.current = some (index, history)) (next : History) :
    s.Keeps (s.put index next) false where
  labels := (Worksheet.publish_isPublished _ _).kept
  others := by
    intro other _ elsewhere
    have differs : index ≠ other := fun same => elsewhere history (same ▸ atHand)
    exact List.getElem?_set_ne differs
  count := by simp [put]

theorem keeps_settled (s : Session) : s.Keeps s.settled false := by
  unfold settled
  split
  · exact keeps_of_same rfl rfl
  · exact keeps_put (by assumption) _

theorem keeps_opened (s : Session) (source : Option String) (e : Expr) :
    s.Keeps (s.opened source e) true := by
  have kept := keeps_settled (s.started source e)
  have longer : (s.started source e).worksheet.sequences.length =
      s.worksheet.sequences.length + 1 := by
    simp [started, Worksheet.start]
  refine ⟨kept.labels, ?_, ?_⟩
  · intro index inside elsewhere
    refine (kept.others index (by omega) elsewhere).trans ?_
    exact List.getElem?_append_left inside
  · exact (kept.count.trans (by simp)).trans longer

theorem Change.keeps {s next : Session} {request : Request}
    {result : Except Failure (Option String)} (change : s.Change request next result) :
    s.Keeps next (request.introduces && result.isOk) := by
  cases change with
  | answered _ plain | declared _ plain | interrupted plain =>
      rw [plain]
      exact keeps_of_same rfl rfl
  | loaded asked _ | misfit asked _ =>
      subst asked
      exact keeps_of_same rfl rfl
  | opened asked _ =>
      rw [asked]
      exact keeps_opened s _ _
  | turned plain found =>
      rw [plain]
      have kept := keeps_settled s
      exact ⟨kept.labels, kept.others, kept.count⟩
  | saved plain atHand _ =>
      rw [plain]
      exact keeps_put atHand _
  | unsaid tells atHand =>
      rw [Request.introduces_of_tellsLast tells]
      exact keeps_put atHand _
  | refused | broken =>
      rw [Except.isOk, Except.toBool, Bool.and_false]
      exact keeps_of_same rfl rfl

/-! What holds between two lines. -/

/-- There is an index exactly if there is a derivation at hand, which has the settings of the
worksheet and the lines of the one that is stored there. Every derivation begins with the one line
that introduces it, and the labelled lines are registered. The settings are those of the rules and
parameters. -/
structure Sound (s : Session) : Prop where
  paired : s.Paired
  atHand : ∀ index history, s.current = some (index, history) →
    s.worksheet.sequences[index]? = some history
  started : ∀ history ∈ s.worksheet.sequences, history.IsStarted
  registered : ∀ history ∈ s.worksheet.sequences, ∀ line ∈ history, ∀ label,
    line.label = some label → label ≠ "" → (label, line.expr) ∈ s.worksheet.settings.labels
  distinct : s.worksheet.settings.labels.Nodup
  inForce : s.worksheet.settings =
    { settingsOf s.rules s.parameters with labels := s.worksheet.settings.labels }

section

variable {s : Session}

theorem Sound.placed (sound : s.Sound) : s.Placed where
  paired := sound.paired
  stored := fun history member => (sound.started history member).ne_nil
  current := by
    intro index history atHand
    have found := sound.atHand index history atHand
    exact ⟨(List.getElem?_eq_some_iff.mp found).1,
      (sound.started history (List.mem_of_getElem? found)).ne_nil⟩

theorem Sound.provider (sound : s.Sound) : s.worksheet.settings.provider = Expr.suggest := by
  rw [sound.inForce]
  rfl

theorem Sound.auto (sound : s.Sound) : s.worksheet.settings.catalog.auto = s.rules.auto := by
  rw [sound.inForce]
  rfl

theorem sound_ofRules (rules : RuleSet) : (ofRules rules).Sound where
  paired := ⟨by simp [ofRules], nofun⟩
  atHand := nofun
  started := by simp [ofRules, Worksheet.ofSettings]
  registered := by simp [ofRules, Worksheet.ofSettings]
  distinct := List.nodup_nil
  inForce := rfl

theorem Sound.declare (sound : s.Sound) (names : List String) : (s.declare names).Sound where
  paired := sound.paired.declare names
  atHand := current_declare s names ▸ sound.atHand
  started := sound.started
  registered := sound.registered
  distinct := sound.distinct
  inForce := by
    have merged : (s.rules.context.addParameters s.parameters).addParameters
        (OrderedSet.insertAll s.parameters names) =
          s.rules.context.addParameters (OrderedSet.insertAll s.parameters names) := by
      simp only [Context.addParameters, OrderedSet.insertAll_insertAll]
    have inForce := sound.inForce
    simp only [Session.declare, Session.renew]
    rw [inForce]
    simp only [settingsOf, Settings.ofRuleSet, Settings.ofCatalog, merged]

theorem Sound.useRules (sound : s.Sound) (rules : RuleSet) : (s.useRules rules).Sound :=
  ⟨sound.paired.useRules rules, current_useRules s rules ▸ sound.atHand, sound.started,
    sound.registered, sound.distinct, rfl⟩

theorem Sound.put (sound : s.Sound) {index : Nat} {history next : History}
    (atHand : s.current = some (index, history)) (started : next.IsStarted) :
    (s.put index next).Sound := by
  have published := Worksheet.publish_isPublished s.worksheet.settings next
  have inside := (sound.placed.current index history atHand).1
  refine ⟨paired_hold _ index next, forall_current_hold (List.getElem?_set_self inside),
    forall_stored_put sound.started started, forall_stored_put ?_ ?_,
    published.distinct sound.distinct, ?_⟩
  · exact fun other member line inLines label found named =>
      published.kept.subset (sound.registered other member line inLines label found named)
  · exact fun line inLines label found named =>
      published.registered line inLines label (by simp [Line.name?, found, named])
  · exact published.others.trans (congrArg
      (fun settings => { settings with
        labels := (Worksheet.publish s.worksheet.settings next).1.labels }) sound.inForce)

theorem Sound.settled (sound : s.Sound) : s.settled.Sound := by
  unfold Session.settled
  split
  · exact sound
  · rename_i index history atHand
    exact sound.put atHand
      (sound.started history (List.mem_of_getElem? (sound.atHand index history atHand)))

theorem Sound.turn (sound : s.Sound) {index : Nat} {history : History}
    (found : s.worksheet.sequences[index]? = some history) : (s.hold index history).Sound where
  paired := paired_hold s index history
  atHand := forall_current_hold found
  started := sound.started
  registered := sound.registered
  distinct := sound.distinct
  inForce := sound.inForce

theorem Sound.begun (sound : s.Sound) (source : Option String) (e : Expr) :
    (s.started source e).Sound where
  paired := ⟨sound.paired.index, sound.paired.shared⟩
  atHand := by
    intro index history atHand
    have found := sound.atHand index history atHand
    exact (List.getElem?_append_left (List.getElem?_eq_some_iff.mp found).1).trans found
  started := forall_stored_started sound.started (History.isStarted_introduced source e)
  registered := by
    refine forall_stored_started sound.registered fun line inLines label found _ => ?_
    obtain rfl := List.mem_singleton.mp inLines
    exact nomatch found
  distinct := sound.distinct
  inForce := sound.inForce

theorem Sound.change {request : Request} {next : Session}
    {result : Except Failure (Option String)} (sound : s.Sound) (quiet : s.rules.auto = [])
    (answered : ∀ path, request = .session (.load path) → ∃ said, result = .ok said)
    (change : s.Change request next result) : next.Sound := by
  have silent := sound.auto.trans quiet
  cases change with
  | answered =>
      exact ⟨⟨sound.paired.index, sound.paired.shared⟩, sound.atHand, sound.started,
        sound.registered, sound.distinct, sound.inForce⟩
  | declared names => exact sound.declare names
  | loaded _ _ => exact sound.useRules _
  | misfit asked _ =>
      obtain ⟨said, same⟩ := answered _ asked
      exact nomatch same
  | @opened source e =>
      exact (sound.begun source e).settled.turn (newest_of_started sound.placed source e)
  | turned _ found => exact sound.settled.turn found
  | saved _ atHand reworks | unsaid _ atHand reworks =>
      have started := sound.started _ (List.mem_of_getElem? (sound.atHand _ _ atHand))
      exact sound.put atHand (started.reworks silent sound.provider reworks)
  | refused => exact sound
  | broken _ => exact sound
  | interrupted _ _ _ failed =>
      rw [Settings.push_quiet silent] at failed
      simp at failed

theorem Reached.sound (reached : s.Reached (·.auto = []) (·.auto = [])) :
    s.Sound ∧ s.rules.auto = [] := by
  induction reached with
  | start started quiet =>
      obtain ⟨rules, rfl⟩ := fresh_of_start started
      exact ⟨sound_ofRules rules, quiet⟩
  | @line s files line _ answered quiet ih =>
      have answers := answers_perform ih.1.placed files (Request.read line)
      refine ⟨ih.1.change ih.2 (fun path loads => ?_) answers, quiet⟩
      exact exists_result (answered path loads) loads

end

/-- Where no rule is applied automatically, a session that lines lead to is sound, and the next
line, whatever it is, leaves what it does not work on. -/
theorem reached_sound (s : Session) (reached : s.Reached (·.auto = []) (·.auto = [])) :
    s.Sound ∧ ∀ files line, s.Keeps (s.respond files line).session
      ((Request.read line).introduces && (s.perform files (Request.read line)).result.isOk) := by
  have sound := reached.sound.1
  exact ⟨sound, fun files line => (answers_perform sound.placed files (Request.read line)).keeps⟩

theorem start_algebra : ∃ rules : RuleSet, RuleSet.algebra.result = .ok rules ∧
    rules.context = Context.arithmetic [] ∧ rules.auto = [] ∧
    (start (RuleSet.empty "none" .empty none)).result = .ok (ofRules rules) := by
  have frame : (RuleSet.algebra.result.toOption.map fun rules =>
      decide (rules.context = Context.arithmetic [] ∧ rules.auto = [])) = some true := by
    decide +kernel
  cases loaded : RuleSet.algebra.result with
  | error fault => simp [loaded, Except.toOption] at frame
  | ok rules =>
      rw [loaded] at frame
      simp only [Except.toOption, Option.map_some, Option.some.injEq, decide_eq_true_eq] at frame
      refine ⟨rules, rfl, frame.1, frame.2, ?_⟩
      simp only [start, bind, Logged.andThen, loaded]
      rfl

theorem respond_introduce {rules : RuleSet} {line text : String} {e : Expr} (files : Files)
    (read : Request.read line = .worksheet (.introduce text))
    (parsed : Parse.infixed rules.context text = .ok e) :
    ((ofRules rules).respond files line).session =
      { ofRules rules with
        worksheet := ⟨settingsOf rules [], [[.byUser (.introduce none) e]]⟩ }.hold 0
          [.byUser (.introduce none) e] := by
  change ((ofRules rules).perform files (Request.read line)).session = _
  rw [read]
  change ((ofRules rules).introduce text).session = _
  have known : Parse.infixed (ofRules rules).worksheet.settings.context text = .ok e := parsed
  rw [introduce, known]
  rfl

open Stepwise.Expr in
/-- A derivation is begun, and its line is labelled. -/
theorem reached_sound_labelled : ∃ rules : RuleSet, RuleSet.algebra.result = .ok rules ∧
    ∃ s : Session, s = ((ofRules rules).respond Files.none "introduce x + 0").session ∧
      s.worksheet.sequences = [[.byUser (.introduce none) (binary "+" (var "x") (const "0"))]] ∧
      (s.respond Files.none "label A").session.Sound := by
  obtain ⟨rules, loaded, context, quiet, started⟩ := start_algebra
  have fresh : Reached (·.auto = []) (·.auto = []) (ofRules rules) := .start started quiet
  have first : Request.read "introduce x + 0" = .worksheet (.introduce "x + 0") := by
    decide +kernel
  have second : Request.read "label A" = .worksheet (.label "A" none) := by decide +kernel
  have begun := fresh.next fresh.sound.1.placed Files.none "introduce x + 0" (by simp [first]) quiet
  have labelled := begun.next begun.sound.1.placed Files.none "label A" (by simp [second])
    begun.sound.2
  refine ⟨rules, loaded, _, rfl, ?_, (reached_sound _ labelled).1⟩
  rw [respond_introduce Files.none first (context ▸ Interpretation.infixed_sum)]
  rfl

end Session

end Stepwise
