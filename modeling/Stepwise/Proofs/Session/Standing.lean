import Stepwise.Proofs.Algebra.Shaped
import Stepwise.Proofs.Document.Failure
import Stepwise.Proofs.Session.Sound

/-!
How a session can break off: a search for suggestions can, where an operand is selected that is not
there and where numbers overflow; the answer can, where it has a rule in it whose label is no text;
and nothing else.
-/

namespace Stepwise

namespace History

def IsShaped (history : History) : Prop := ∀ line ∈ history, line.expr.WellShaped

variable {history next : History}

theorem IsShaped.last (shaped : history.IsShaped) {e : Expr} (newest : history.last? = some e) :
    e.WellShaped := by
  obtain ⟨line, final, rfl⟩ := Option.map_eq_some_iff.mp newest
  exact shaped line (List.mem_of_getLast? final)

theorem IsShaped.withLabel (shaped : history.IsShaped) {label : Option String} {index : Int}
    (named : history.withLabel label index = .ok next) : next.IsShaped := by
  have kept : next.map Line.expr = history.map Line.expr := withLabel_map (fun _ _ => rfl) named
  have each : ∀ e ∈ history.map Line.expr, e.WellShaped := List.forall_mem_map.mpr shaped
  exact List.forall_mem_map.mp (kept ▸ each)

theorem IsShaped.resetTo (shaped : history.IsShaped) {index : Int}
    (dropped : history.resetTo index = .ok next) : next.IsShaped := by
  rw [resetTo_eq_ok dropped]
  exact fun line member => shaped line (List.mem_of_mem_take member)

end History

namespace Settings

variable {settings : Settings} {history : History}

theorem AutoRun.lines_wellShaped (keeps : settings.KeepsShape) {e last : Expr} {lines : List Line}
    (run : settings.AutoRun e lines last) (shaped : e.WellShaped) :
    ∀ line ∈ lines, line.expr.WellShaped := by
  induction run with
  | done e => simp
  | step next _ ih =>
      have here := next.wellShaped keeps shaped
      exact List.forall_mem_cons.mpr ⟨here, ih here⟩

theorem push_isShaped (keeps : settings.KeepsShape) (shaped : history.IsShaped) (action : Action)
    {e : Expr} (operand : e.WellShaped) : (settings.push history action e).history.IsShaped := by
  obtain ⟨added, last, grown, _, run, _⟩ := settings.push_runs history action e
  have first := keeps.normalizer e operand
  rw [grown]
  intro line member
  rcases List.mem_append.mp member with old | new
  · exact shaped line old
  · rcases List.mem_cons.mp new with rfl | later
    · exact first
    · exact run.lines_wellShaped keeps first line later

structure OffersShaped (settings : Settings) : Prop where
  normalizer : ∃ name, settings.normalizer = Session.normalizerOf name
  rules : ∀ id rule, settings.catalog.rule? id = some rule → rule.statement.WellShaped
  labels : ∀ pair ∈ settings.labels, pair.2.WellShaped
  provider : settings.provider = Expr.suggest

theorem OffersShaped.keepsShape (offersShaped : settings.OffersShaped) : settings.KeepsShape where
  normalizer := by
    intro e shaped
    obtain ⟨name, same⟩ := offersShaped.normalizer
    rw [normalize, same]
    unfold Session.normalizerOf
    split
    · exact Expr.normalize_wellShaped _ shaped
    · exact shaped
  rules := offersShaped.rules

theorem Offers.wellShaped (offersShaped : settings.OffersShaped) (shaped : history.IsShaped)
    {action : Action} {e : Expr} (offers : settings.Offers history action e) : e.WellShaped := by
  cases offers with
  | rule known newest applied =>
      exact Rule.wellShaped_of_applyAt (offersShaped.rules _ _ known) (shaped.last newest) applied
  | suggestion listed member =>
      cases newest : history.last? with
      | none =>
          rw [suggestions, newest] at listed
          obtain rfl := Except.ok.inj listed
          simp at member
      | some last =>
          obtain ⟨target, _, suggested⟩ :=
            (suggestions_finds offersShaped.provider newest).value listed _ member
          exact suggested.wellShaped (shaped.last newest) offersShaped.keepsShape
            offersShaped.labels

theorem Reworks.isShaped (offersShaped : settings.OffersShaped) (shaped : history.IsShaped)
    {next : History} (reworks : settings.Reworks history next) : next.IsShaped := by
  cases reworks with
  | push offers _ =>
      exact push_isShaped offersShaped.keepsShape shaped _ (offers.wellShaped offersShaped shaped)
  | label named => exact shaped.withLabel named
  | reset dropped => exact shaped.resetTo dropped

end Settings

theorem Session.offersShaped_settingsOf {rules : RuleSet} (shaped : rules.IsShaped)
    (parameters : List String) {labels : List (String × Expr)}
    (labelsShaped : ∀ pair ∈ labels, pair.2.WellShaped) :
    Settings.OffersShaped { settingsOf rules parameters with labels := labels } where
  normalizer := ⟨_, rfl⟩
  rules := fun _ rule found => shaped rule (Interpretation.mem_of_find?_table found).1
  labels := labelsShaped
  provider := rfl

namespace Session

open Stepwise.Expr

structure Standing (s : Session) : Prop where
  placed : s.Placed
  stored : ∀ history ∈ s.worksheet.sequences, history.IsShaped
  atHand : ∀ index history, s.current = some (index, history) → history.IsShaped
  offers : s.worksheet.settings.OffersShaped

section

variable {s : Session}

theorem standing_ofRules {rules : RuleSet} (shaped : rules.IsShaped) :
    (ofRules rules).Standing where
  placed := (sound_ofRules rules).placed
  stored := by simp [ofRules, Worksheet.ofSettings]
  atHand := nofun
  offers := offersShaped_settingsOf shaped [] (List.forall_mem_nil _)

theorem Standing.same (standing : s.Standing) {next : Session} (placed : next.Placed)
    (sequences : next.worksheet.sequences = s.worksheet.sequences)
    (current : next.current = s.current) (offers : next.worksheet.settings.OffersShaped) :
    next.Standing :=
  ⟨placed, sequences ▸ standing.stored, current ▸ standing.atHand, offers⟩

theorem Standing.put (standing : s.Standing) {index : Nat} {history next : History}
    (atHand : s.current = some (index, history)) (nonempty : next ≠ []) (shaped : next.IsShaped) :
    (s.put index next).Standing := by
  have published := Worksheet.publish_isPublished s.worksheet.settings next
  refine ⟨standing.placed.put atHand nonempty, forall_stored_put standing.stored shaped,
    forall_current_hold shaped, ?_⟩
  change Settings.OffersShaped (Worksheet.publish s.worksheet.settings next).1
  have labels := published.forall_labels standing.offers.labels shaped
  rw [published.others]
  exact ⟨standing.offers.normalizer, standing.offers.rules, labels, standing.offers.provider⟩

theorem Standing.settled (standing : s.Standing) : s.settled.Standing := by
  unfold Session.settled
  split
  · exact standing
  · rename_i index history atHand
    exact standing.put atHand (standing.placed.current index history atHand).2
      (standing.atHand index history atHand)

theorem Standing.turn (standing : s.Standing) {index : Nat} {history : History}
    (found : s.worksheet.sequences[index]? = some history) :
    (s.hold index history).Standing where
  placed := standing.placed.turn found
  stored := standing.stored
  atHand := forall_current_hold (standing.stored history (List.mem_of_getElem? found))
  offers := standing.offers

theorem Standing.begun (standing : s.Standing) (source : Option String) {e : Expr}
    (shaped : e.WellShaped) : (s.started source e).Standing where
  placed := started_placed standing.placed source e
  stored := forall_stored_started standing.stored
    (by simpa [History.IsShaped, Line.byUser] using shaped)
  atHand := standing.atHand
  offers := standing.offers

theorem Starts.wellShaped (standing : s.Standing) {source : Option String} {e : Expr}
    (starts : s.Starts source e) : e.WellShaped := by
  cases starts with
  | written parsed => exact ((Parse.infixed_operand _ _).value parsed).1
  | labelled known => exact standing.offers.labels _ (Worksheet.mem_of_labelled known)

theorem Standing.change {request : Request} {next : Session}
    {result : Except Failure (Option String)} (standing : s.Standing)
    (change : s.Change request next result) : next.Standing := by
  have placed := standing.placed.change change
  cases change with
  | answered | misfit => exact standing.same placed rfl rfl standing.offers
  | declared names =>
      obtain ⟨normalizer, rules, labels, provider⟩ := standing.offers
      exact standing.same placed rfl (current_declare s names) ⟨normalizer, rules, labels, provider⟩
  | loaded _ loaded =>
      exact standing.same placed rfl (current_useRules s _)
        (offersShaped_settingsOf (RuleSet.isShaped_of_load loaded) s.parameters
          standing.offers.labels)
  | @opened source e _ _ starts =>
      exact (standing.begun source (starts.wellShaped standing)).settled.turn
        (newest_of_started standing.placed source e)
  | turned _ found => exact standing.settled.turn found
  | saved _ atHand reworks | unsaid _ atHand reworks =>
      exact standing.put atHand (reworks.ne_nil (standing.placed.current _ _ atHand).2)
        (reworks.isShaped standing.offers (standing.atHand _ _ atHand))
  | refused => exact standing
  | broken _ => exact standing
  | @interrupted index history action e _ _ _ atHand offers _ =>
      have shaped := standing.atHand index history atHand
      have pushed := Settings.push_isShaped standing.offers.keepsShape shaped action
        (offers.wellShaped standing.offers shaped)
      exact ⟨placed, standing.stored, forall_current_hold pushed, standing.offers⟩

theorem Reached.standing (reached : s.Reached RuleSet.IsShaped fun _ => True) : s.Standing := by
  induction reached with
  | start started shaped =>
      obtain ⟨rules, rfl⟩ := fresh_of_start started
      exact standing_ofRules shaped
  | @line s files line _ _ _ ih =>
      exact ih.change (answers_perform ih.placed files (Request.read line))

end

/-- The search for the steps at a selection in the derivation at hand breaks off. -/
inductive SearchBroken (s : Session) : Request → Fault → Prop
  | intro {request : Request} {addresses : List String} {selection : List Address} {index : Nat}
      {history : History} {e : Expr} {fault : Fault} :
      (request = .worksheet (.suggest addresses) ∨
        ∃ number, request = .worksheet (.take number addresses)) →
      readSelection addresses = .ok selection → s.current = some (index, history) →
        history.last? = some e → e.SearchBreaks selection fault → SearchBroken s request fault

/-- The answer has the text of a rule in it whose label is no text. -/
def Unsaid (s next : Session) (request : Request) (fault : Fault) : Prop :=
  ∃ literal kind, s.Tells next request (.rule (.other literal kind)) ∧
    fault = .missing (.ability kind .text)

theorem Tells.unsaid {s next : Session} {request : Request} {action : Action} {fault : Fault}
    (tells : s.Tells next request action) (unsaid : action.said = .error fault) :
    s.Unsaid next request fault := by
  obtain ⟨literal, kind, rfl, rfl⟩ := Action.said_eq_error unsaid
  exact ⟨literal, kind, tells, rfl⟩

theorem Breaks.cases {s : Session} (standing : s.Standing) {request : Request}
    {fault : Fault} (breaks : s.Breaks request fault)
    (noLoad : ∀ path, request ≠ .session (.load path)) :
    s.SearchBroken request fault ∨ s.Unsaid s request fault := by
  cases breaks with
  | load => exact absurd rfl (noLoad _)
  | @suggestions _ index history _ _ _ asks atHand read failed valid =>
      cases newest : history.last? with
      | none =>
          rw [Settings.suggestions, newest] at failed
          exact nomatch failed
      | some e =>
          have fails := (Settings.suggestions_finds standing.offers.provider newest).fault failed
            ((standing.atHand index history atHand).last newest)
          cases fails with
          | invalid invalid => simp [valid] at invalid
          | breaks breaks => exact Or.inl (.intro asks read atHand newest breaks)
  | unsaid tells unsaid => exact Or.inr (tells.unsaid unsaid)

/-- Every line that does not load rules is answered, unless it asks for steps where an operand is
selected that is not there, or where numbers overflow, or the answer would have a rule in it whose
label is no text. -/
theorem reached_responds (s : Session) (reached : s.Reached RuleSet.IsShaped fun _ => True)
    (files : Files) (line : String) (noLoad : ∀ path, Request.read line ≠ .session (.load path)) :
    (∃ said, (s.respond files line).said = .ok said) ∨
      ∃ fault, (s.respond files line).said = .error fault ∧
        (s.SearchBroken (Request.read line) fault ∨
          s.Unsaid (s.respond files line).session (Request.read line) fault) := by
  have standing := reached.standing
  have answers := answers_perform standing.placed files (Request.read line)
  unfold respond
  dsimp only
  unfold Answers at answers
  generalize (s.perform files (Request.read line)).session = next at answers
  generalize (s.perform files (Request.read line)).result = result at answers
  cases answers with
  | @broken fault breaks => exact Or.inr ⟨fault, rfl, breaks.cases standing noLoad⟩
  | misfit asked _ => exact absurd asked (noLoad _)
  | @unsaid index _ next newest _ tells _ _ last unsaid =>
      have told : s.Tells (s.put index next) (Request.read line) newest.action :=
        .last tells rfl (congrArg (Option.map Line.action) last)
      exact Or.inr ⟨_, rfl, Or.inr (told.unsaid unsaid)⟩
  | _ => exact Or.inl ⟨_, rfl⟩

/-- A line is to be labelled that is not there. -/
theorem reached_responds_absent : ∃ rules : RuleSet, RuleSet.algebra.result = .ok rules ∧
    ∃ s : Session, s = ((ofRules rules).respond Files.none "introduce x + 0").session ∧
      ∃ said, (s.respond Files.none "label A 5").said = .ok said := by
  obtain ⟨rules, loaded, _, _, started⟩ := start_algebra
  have shaped := RuleSet.isShaped_algebra loaded
  have fresh : Reached RuleSet.IsShaped (fun _ => True) (ofRules rules) := .start started shaped
  have introduces : Request.read "introduce x + 0" = .worksheet (.introduce "x + 0") := by
    decide +kernel
  have labels : Request.read "label A 5" = .worksheet (.label "A" (some "5")) := by decide +kernel
  have begun := fresh.next (standing_ofRules shaped).placed Files.none "introduce x + 0"
    (by simp [introduces]) trivial
  refine ⟨rules, loaded, _, rfl, ?_⟩
  refine (reached_responds _ begun Files.none _ (by simp [labels])).resolve_right ?_
  rintro ⟨fault, _, broken | ⟨_, _, tells, _⟩⟩
  · rw [labels] at broken
    cases broken with
    | intro asks => simp at asks
  · rw [labels] at tells
    cases tells with
    | last asks => simp [Request.tellsLast] at asks

theorem infixed_equation :
    Parse.infixed (Context.arithmetic []) "x = 1" = .ok (equation (var "x") (const "1")) := by
  have scanned : Token.scan "x = 1" = ["x", "=", "1"] := by decide +kernel
  rw [Parse.infixed, scanned, Parse.tokens]
  simp +decide only [Parse.operation, Parse.operand, Parse.operators, ↓reduceIte]
  decide +kernel

/-- The equation has no sixth side. -/
theorem respond_breaks_off : ∃ rules : RuleSet, RuleSet.algebra.result = .ok rules ∧
    ∃ s : Session, s = ((ofRules rules).respond Files.none "introduce x = 1").session ∧
      s.Reached RuleSet.IsShaped (fun _ => True) ∧
      (∀ path, Request.read "actions . 5.0" ≠ .session (.load path)) ∧
      (s.respond Files.none "actions . 5.0").said = .error .outOfRange := by
  have searched : (RuleSet.algebra.result.toOption.map fun rules =>
      (settingsOf rules []).suggestions
        [.byUser (.introduce none) (equation (var "x") (const "1"))] [.root, .ofPath [5, 0]]) =
      some (.error .outOfRange) := by
    decide +kernel
  obtain ⟨rules, loaded, context, _, started⟩ := start_algebra
  rw [loaded] at searched
  simp only [Except.toOption, Option.map_some, Option.some.injEq] at searched
  have shaped := RuleSet.isShaped_algebra loaded
  have fresh : Reached RuleSet.IsShaped (fun _ => True) (ofRules rules) := .start started shaped
  have introduces : Request.read "introduce x = 1" = .worksheet (.introduce "x = 1") := by
    decide +kernel
  have asks : Request.read "actions . 5.0" = .worksheet (.suggest [".", "5.0"]) := by
    decide +kernel
  have selected : readSelection [".", "5.0"] = .ok [.root, .ofPath [5, 0]] := by decide +kernel
  have begun := fresh.next (standing_ofRules shaped).placed Files.none "introduce x = 1"
    (by simp [introduces]) trivial
  refine ⟨rules, loaded, _, rfl, begun, by simp [asks], ?_⟩
  rw [respond_introduce Files.none introduces (context ▸ infixed_equation), respond, asks]
  simp only [perform, work, suggest, withSequence, hold, selected, trying, searched]
  rfl

end Session

end Stepwise
