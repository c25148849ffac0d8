import Stepwise.Proofs.Rule.Application
import Stepwise.Worksheet.Derivation

/-!
Saturation with the automatic rules. What can be tried on an expression is one list, in order of
priority and of search; a step takes the first trial of it that succeeds, and a run of steps ends
at the limit, where nothing on the list succeeds, or where a trial raises more than a failed step.
-/

namespace Stepwise

namespace Settings

open Stepwise.Expr

structure Trial where
  id : String
  rule : Rule
  address : Address

def Trial.attempt (trial : Trial) (e : Expr) : Attempt Expr := trial.rule.applyAt e trial.address

def trialsOf (settings : Settings) (e : Expr) (ids : List String) : List Trial :=
  ids.flatMap fun id =>
    match settings.catalog.rule? id with
    | none => []
    | some rule => (rule.candidates e).map fun address => ⟨id, rule, address⟩

def trials (settings : Settings) (e : Expr) : List Trial :=
  settings.trialsOf e settings.catalog.auto

def search (e : Expr) : List Trial → Attempt (Option (Trial × Expr))
  | [] => .ok none
  | trial :: rest => do
      match ← (trial.attempt e).orSkip with
      | some result => return some (trial, result)
      | none => search e rest

theorem search_append (e : Expr) (first second : List Trial) :
    search e (first ++ second) =
      (search e first).bind fun
        | some success => .ok (some success)
        | none => search e second := by
  induction first with
  | nil => rfl
  | cons trial rest ih =>
      rw [List.cons_append, search, search]
      cases (trial.attempt e).orSkip with
      | error fault => rfl
      | ok outcome =>
          cases outcome with
          | some result => rfl
          | none => exact ih

theorem firstApplication_eq (id : String) (rule : Rule) (e : Expr) (addresses : List Address) :
    firstApplication rule e addresses =
      (search e (addresses.map fun address => ⟨id, rule, address⟩)).map
        (Option.map fun success => (success.1.address, success.2)) := by
  induction addresses with
  | nil => rfl
  | cons address rest ih =>
      rw [List.map_cons, search, firstApplication, Trial.attempt]
      cases (rule.applyAt e address).orSkip with
      | error fault => rfl
      | ok outcome =>
          cases outcome with
          | some result => rfl
          | none => exact ih

def stepOf (settings : Settings) (success : Trial × Expr) : AutoStep :=
  ⟨success.1.id, success.1.address,
    .byRule success.1.rule.label (settings.normalize success.2)⟩

theorem search_candidates (e : Expr) (id : String) (rule : Rule) (addresses : List Address)
    {success : Trial × Expr}
    (found : search e (addresses.map fun address => ⟨id, rule, address⟩) = .ok (some success)) :
    success.1.id = id ∧ success.1.rule = rule := by
  induction addresses with
  | nil => simp [search] at found
  | cons address rest ih =>
      rw [List.map_cons, search] at found
      obtain ⟨outcome, _, answer⟩ := Attempt.bind_eq_ok.mp found
      cases outcome with
      | some result =>
          obtain rfl := Option.some.inj (Except.ok.inj answer)
          exact ⟨rfl, rfl⟩
      | none => exact ih answer

theorem firstAutoStep_eq (settings : Settings) (e : Expr) (ids : List String) :
    settings.firstAutoStep e ids =
      (search e (settings.trialsOf e ids)).map (Option.map settings.stepOf) := by
  induction ids with
  | nil => rfl
  | cons id rest ih =>
      rw [firstAutoStep, trialsOf, List.flatMap_cons]
      cases settings.catalog.rule? id with
      | none => exact ih
      | some rule =>
          dsimp only
          rw [search_append, firstApplication_eq id rule e (rule.candidates e)]
          cases searched :
              search e ((rule.candidates e).map fun address => ⟨id, rule, address⟩) with
          | error fault => rfl
          | ok outcome =>
              cases outcome with
              | none => exact ih
              | some success =>
                  obtain ⟨sameId, sameRule⟩ := search_candidates e id rule _ searched
                  subst sameId sameRule
                  rfl

def Answers (e : Expr) (trials : List Trial) : Attempt (Option (Trial × Expr)) → Prop
  | .ok none => ∀ trial ∈ trials, (trial.attempt e).IsSkipped
  | .ok (some (trial, result)) => trial.attempt e = .ok result ∧
      ∃ before after, trials = before ++ trial :: after ∧
        ∀ earlier ∈ before, (earlier.attempt e).IsSkipped
  | .error fault => ∃ trial ∈ trials, trial.attempt e = .error fault ∧
      ¬(trial.attempt e).IsSkipped

theorem search_answers (e : Expr) (trials : List Trial) : Answers e trials (search e trials) := by
  induction trials with
  | nil => simp [search, Answers]
  | cons trial rest ih =>
      rw [search]
      cases tried : (trial.attempt e).orSkip with
      | error fault => exact ⟨trial, by simp, Attempt.orSkip_eq_error tried⟩
      | ok outcome =>
          cases outcome with
          | some result =>
              exact ⟨Attempt.orSkip_eq_ok_some.mp tried, [], rest, rfl, by simp⟩
          | none =>
              have skipped := Attempt.orSkip_eq_none.mp tried
              change Answers e (trial :: rest) (search e rest)
              cases searched : search e rest with
              | error fault =>
                  rw [searched] at ih
                  obtain ⟨raising, member, raised⟩ := ih
                  exact ⟨raising, by simp [member], raised⟩
              | ok later =>
                  rw [searched] at ih
                  cases later with
                  | none =>
                      intro other member
                      rcases List.mem_cons.mp member with rfl | inRest
                      · exact skipped
                      · exact ih other inRest
                  | some success =>
                      obtain ⟨applied, before, after, parts, earlier⟩ := ih
                      refine ⟨applied, trial :: before, after, by rw [parts]; rfl, ?_⟩
                      intro other member
                      rcases List.mem_cons.mp member with rfl | inBefore
                      · exact skipped
                      · exact earlier other inBefore

/-- The line that the first successful trial on an expression gives. -/
def IsNextLine (settings : Settings) (e : Expr) (line : Line) : Prop :=
  ∃ before trial after result, settings.trials e = before ++ trial :: after ∧
    (∀ earlier ∈ before, (earlier.attempt e).IsSkipped) ∧ trial.attempt e = .ok result ∧
    line = .byRule trial.rule.label (settings.normalize result)

/-- Each line is the next one after the expression before it; the last expression is at the end. -/
inductive AutoRun (settings : Settings) : Expr → List Line → Expr → Prop
  | done (e : Expr) : AutoRun settings e [] e
  | step {e : Expr} {line : Line} {rest : List Line} {last : Expr}
      (next : settings.IsNextLine e line) (more : AutoRun settings line.expr rest last) :
      AutoRun settings e (line :: rest) last

/-- How a run of at most `limit` steps can end. -/
def EndsWith (settings : Settings) (limit : Nat) (lines : List Line) (last : Expr) :
    Attempt Unit → Prop
  | .ok () => lines.length = limit ∨ ∀ trial ∈ settings.trials last, (trial.attempt last).IsSkipped
  | .error fault => ∃ trial ∈ settings.trials last, trial.attempt last = .error fault ∧
      ¬(trial.attempt last).IsSkipped

theorem saturate_runs (settings : Settings) (limit : Nat) (e : Expr) :
    (settings.saturate limit e).history.length ≤ limit ∧
      ∃ last, settings.AutoRun e (settings.saturate limit e).history last ∧
        settings.EndsWith limit (settings.saturate limit e).history last
          (settings.saturate limit e).result := by
  induction limit generalizing e with
  | zero => exact ⟨Nat.le_refl 0, e, .done e, Or.inl rfl⟩
  | succ limit ih =>
      have searched := search_answers e (settings.trials e)
      rw [saturate, autoStep?, firstAutoStep_eq]
      change Answers e _ (search e (settings.trialsOf e settings.catalog.auto)) at searched
      cases known : search e (settings.trialsOf e settings.catalog.auto) with
      | error fault =>
          rw [known] at searched
          exact ⟨Nat.zero_le _, e, .done e, searched⟩
      | ok outcome =>
          rw [known] at searched
          cases outcome with
          | none => exact ⟨Nat.zero_le _, e, .done e, Or.inr searched⟩
          | some success =>
              obtain ⟨trial, result⟩ := success
              obtain ⟨applied, before, after, parts, earlier⟩ := searched
              obtain ⟨bounded, last, run, ends⟩ := ih (settings.stepOf (trial, result)).line.expr
              refine ⟨Nat.succ_le_succ bounded, last, .step ?_ run, ?_⟩
              · exact ⟨before, trial, after, result, parts, earlier, applied, rfl⟩
              · dsimp only [Except.map, Option.map] at ends ⊢
                cases finish : (settings.saturate limit
                    (settings.stepOf (trial, result)).line.expr).result with
                | error fault =>
                    rw [finish] at ends
                    exact ends
                | ok _ =>
                    rw [finish] at ends
                    exact ends.imp_left (congrArg Nat.succ)

/-! Pushing. -/

section

variable {settings : Settings}

theorem trials_of_no_auto (none : settings.catalog.auto.isEmpty = true) (e : Expr) :
    settings.trials e = [] := by
  rw [trials, List.isEmpty_iff.mp none]
  rfl

theorem push_runs (settings : Settings) (history : History) (action : Action) (e : Expr) :
    ∃ added last, (settings.push history action e).history =
        history ++ .byUser action (settings.normalize e) :: added ∧
      added.length ≤ autoLimit ∧ settings.AutoRun (settings.normalize e) added last ∧
      settings.EndsWith autoLimit added last (settings.push history action e).result := by
  have newest :
      History.last? (history ++ [Line.byUser action (settings.normalize e)]) =
        some (settings.normalize e) := by
    simp [History.last?, Line.byUser]
  rw [push, runAuto, newest]
  dsimp only
  split
  · rename_i none
    refine ⟨[], settings.normalize e, rfl, Nat.zero_le _, .done _, Or.inr ?_⟩
    simp [trials_of_no_auto none]
  · obtain ⟨bounded, last, run, ends⟩ := settings.saturate_runs autoLimit (settings.normalize e)
    exact ⟨_, last, by simp, bounded, run, ends⟩

theorem AutoRun.last?_eq {e last : Expr} {lines : List Line} (run : settings.AutoRun e lines last)
    (history : History) {line : Line} (start : line.expr = e) :
    History.last? (history ++ line :: lines) = some last := by
  induction run generalizing history line with
  | done e => simp [History.last?, start]
  | @step e next rest last _ _ ih =>
      have moved : history ++ line :: next :: rest = (history ++ [line]) ++ next :: rest := by simp
      rw [moved]
      exact ih _ rfl

structure KeepsShape (settings : Settings) : Prop where
  normalizer : ∀ e : Expr, e.WellShaped → (settings.normalize e).WellShaped
  rules : ∀ id rule, settings.catalog.rule? id = some rule → rule.statement.WellShaped

theorem rule?_of_mem_trialsOf {e : Expr} {ids : List String} {trial : Trial}
    (member : trial ∈ settings.trialsOf e ids) :
    trial.id ∈ ids ∧ settings.catalog.rule? trial.id = some trial.rule ∧
      trial.address ∈ trial.rule.candidates e := by
  obtain ⟨id, listed, tried⟩ := List.mem_flatMap.mp member
  cases known : settings.catalog.rule? id with
  | none => simp [known] at tried
  | some rule =>
      simp only [known, List.mem_map] at tried
      obtain ⟨address, searched, rfl⟩ := tried
      exact ⟨listed, known, searched⟩

theorem mem_trialsOf {e : Expr} {ids : List String} {id : String} (listed : id ∈ ids) {rule : Rule}
    (known : settings.catalog.rule? id = some rule) {address : Address}
    (searched : address ∈ rule.candidates e) : ⟨id, rule, address⟩ ∈ settings.trialsOf e ids := by
  refine List.mem_flatMap.mpr ⟨id, listed, ?_⟩
  simp only [known]
  exact List.mem_map_of_mem searched

theorem IsNextLine.origin {e : Expr} {line : Line} (next : settings.IsNextLine e line) :
    ∃ id ∈ settings.catalog.auto, ∃ rule, settings.catalog.rule? id = some rule ∧
      ∃ address result, rule.applyAt e address = .ok result ∧
        line = .byRule rule.label (settings.normalize result) := by
  obtain ⟨before, trial, after, result, parts, _, applied, same⟩ := next
  have tried : trial ∈ settings.trials e := by simp [parts]
  obtain ⟨listed, known, _⟩ := rule?_of_mem_trialsOf tried
  exact ⟨trial.id, listed, trial.rule, known, trial.address, result, applied, same⟩

theorem IsNextLine.wellShaped (keeps : settings.KeepsShape) {e : Expr} {line : Line}
    (next : settings.IsNextLine e line) (shaped : e.WellShaped) : line.expr.WellShaped := by
  obtain ⟨id, _, rule, known, address, result, applied, rfl⟩ := next.origin
  exact keeps.normalizer result (Rule.wellShaped_of_applyAt (keeps.rules _ _ known) shaped applied)

theorem AutoRun.wellShaped (keeps : settings.KeepsShape) {e last : Expr} {lines : List Line}
    (run : settings.AutoRun e lines last) (shaped : e.WellShaped) : last.WellShaped := by
  induction run with
  | done e => exact shaped
  | step next _ ih => exact ih (next.wellShaped keeps shaped)

/-- Where every trial is passed over, no rule without variadic trains applies anywhere. -/
theorem not_applicable_of_skipped (keeps : settings.KeepsShape) {e : Expr} (shaped : e.WellShaped)
    (skipped : ∀ trial ∈ settings.trials e, (trial.attempt e).IsSkipped) {id : String}
    (listed : id ∈ settings.catalog.auto) {rule : Rule}
    (known : settings.catalog.rule? id = some rule)
    (absent : ¬rule.statement.HasVariadicTrain) (address : Address) (result : Expr) :
    rule.applyAt e address ≠ .ok result := by
  intro applied
  have searched := Rule.mem_candidates_of_applyAt (keeps.rules id rule known) absent shaped applied
  obtain ⟨cause, failed⟩ := skipped _ (mem_trialsOf listed known searched)
  have same : rule.applyAt e address = .error (.step cause) := failed
  simp [same] at applied

end

/-- A push that returns adds the new line in normal form and then the line of the first automatic
step that succeeds, again and again, until the limit is reached or no automatic rule without
variadic trains applies to the last expression. -/
theorem push_saturates (settings : Settings) (keeps : settings.KeepsShape) (history : History)
    (action : Action) (e : Expr) (shaped : e.WellShaped)
    (returned : (settings.push history action e).result = .ok ()) :
    ∃ added last, (settings.push history action e).history =
        history ++ .byUser action (settings.normalize e) :: added ∧
      added.length ≤ autoLimit ∧ settings.AutoRun (settings.normalize e) added last ∧
      History.last? (settings.push history action e).history = some last ∧
      (added.length < autoLimit → ∀ id ∈ settings.catalog.auto, ∀ rule,
        settings.catalog.rule? id = some rule → ¬rule.statement.HasVariadicTrain →
          ∀ address result, rule.applyAt last address ≠ .ok result) := by
  obtain ⟨added, last, grown, bounded, run, ends⟩ := settings.push_runs history action e
  refine ⟨added, last, grown, bounded, run, ?_, ?_⟩
  · rw [grown]
    exact run.last?_eq history rfl
  · intro below id listed rule known absent address result
    have lastShaped := run.wellShaped keeps (keeps.normalizer e shaped)
    rw [returned] at ends
    rcases ends with full | skipped
    · omega
    · exact not_applicable_of_skipped keeps lastShaped skipped listed known absent address result

/-- Twice a zero is dropped, and then there is none to drop. -/
theorem push_saturates_zeros :
    let rule : Rule := ⟨"add_zero", "Addition with 0", .equation,
      binary "+" (var "X") (const "0"), var "X"⟩
    let settings := Settings.ofCatalog (Context.arithmetic []) ⟨[("add_zero", rule)], [], ["add_zero"]⟩
    let sum := equation (binary "+" (binary "+" (var "a") (const "0")) (const "0")) (var "b")
    ∃ added, settings.AutoRun sum added (equation (var "a") (var "b")) ∧
      ∀ address result, rule.applyAt (equation (var "a") (var "b")) address ≠ .ok result := by
  intro rule settings sum
  have keeps : settings.KeepsShape := by
    refine ⟨fun _ shaped => shaped, ?_⟩
    intro id found known
    simp only [settings, Settings.ofCatalog, Catalog.rule?, Table.find?] at known
    split at known
    · obtain rfl := Option.some.inj known
      decide
    · simp at known
  obtain ⟨added, last, grown, _, run, newest, none⟩ :=
    push_saturates settings keeps [] (.introduce none) sum (by decide) (by rfl)
  have count : 3 = added.length + 1 := congrArg List.length grown
  obtain rfl : equation (var "a") (var "b") = last := Option.some.inj newest
  have below : added.length < autoLimit := by
    rw [autoLimit]
    omega
  exact ⟨added, run, none below "add_zero" (List.mem_singleton_self _) rule rfl (by decide)⟩

end Settings

end Stepwise
