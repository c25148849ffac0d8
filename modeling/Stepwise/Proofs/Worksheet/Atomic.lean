import Stepwise.Proofs.NormalForm.Simplify
import Stepwise.Proofs.Rule.Failure
import Stepwise.Proofs.Worksheet.Saturation

/-!
Steps that the user directs. What produces the new expression leaves the history alone when it
fails; the push that follows adds a line before the automatic rules are run, so that a step is
atomic exactly when they raise nothing.
-/

namespace Stepwise

/-- The call returns true and the history has grown, or it does not and the history is the same. -/
def Run.IsAtomic (history : History) (run : Run Bool) : Prop :=
  (run.result = .ok true ∧ ∃ line more, run.history = history ++ line :: more) ∨
    ((run.result = .ok false ∨ ∃ fault, run.result = .error fault) ∧ run.history = history)

namespace Settings

open Stepwise.Expr

section

variable {settings : Settings} {history : History}

theorem push_atomic_iff (action : Action) (e : Expr) :
    (answering (settings.push history action e) true).IsAtomic history ↔
      (settings.push history action e).result = .ok () := by
  obtain ⟨added, last, grown, _⟩ := settings.push_runs history action e
  have changed : (settings.push history action e).history ≠ history := by
    rw [grown]
    simp
  unfold Run.IsAtomic answering
  cases result : (settings.push history action e).result with
  | ok _ => simp [Except.map, grown]
  | error fault => simp [Except.map, changed]

theorem tryPush_atomic_iff (action : Action) (produced : Attempt Expr) :
    (settings.tryPush history action produced).IsAtomic history ↔
      ∀ e, produced = .ok e → (settings.push history action e).result = .ok () := by
  cases produced with
  | ok e =>
      rw [tryPush, push_atomic_iff]
      simp
  | error fault =>
      refine iff_of_true ?_ (by simp)
      unfold tryPush
      split
      · rename_i same
        simp at same
      · exact Or.inr ⟨Or.inl rfl, rfl⟩
      · exact Or.inr ⟨Or.inr ⟨_, rfl⟩, rfl⟩

theorem applyRule_atomic_iff (id : String) (address : Address) :
    (settings.applyRule history id address).IsAtomic history ↔
      ∀ rule e result, settings.catalog.rule? id = some rule → history.last? = some e →
        rule.applyAt e address = .ok result →
          (settings.push history (.rule rule.label) result).result = .ok () := by
  unfold applyRule
  cases settings.catalog.rule? id with
  | none => exact iff_of_true (Or.inr ⟨Or.inl rfl, rfl⟩) (by simp)
  | some rule =>
      cases history.last? with
      | none => exact iff_of_true (Or.inr ⟨Or.inr ⟨_, rfl⟩, rfl⟩) (by simp)
      | some e =>
          rw [tryPush_atomic_iff]
          constructor
          · rintro returned _ _ result ⟨⟩ ⟨⟩ applied
            exact returned result applied
          · intro returned result applied
            exact returned rule e result rfl rfl applied

theorem takeSuggestion_atomic_iff (selection : List Address) (index : Int) :
    (settings.takeSuggestion history selection index).IsAtomic history ↔
      ∀ available action e, settings.suggestions history selection = .ok available →
        Index.forward? available index = some (action, e) →
          (settings.push history action e).result = .ok () := by
  unfold takeSuggestion
  cases settings.suggestions history selection with
  | error fault => exact iff_of_true (Or.inr ⟨Or.inr ⟨_, rfl⟩, rfl⟩) (by simp)
  | ok available =>
      dsimp only
      cases chosen : Index.forward? available index with
      | none =>
          refine iff_of_true (Or.inr ⟨Or.inl rfl, rfl⟩) ?_
          rintro _ action e ⟨⟩ found
          simp [chosen] at found
      | some suggestion =>
          obtain ⟨action, e⟩ := suggestion
          rw [push_atomic_iff]
          constructor
          · rintro returned _ _ _ ⟨⟩ found
            obtain ⟨rfl, rfl⟩ := Prod.mk.inj (Option.some.inj (chosen.symm.trans found))
            exact returned
          · intro returned
            exact returned available action e rfl chosen

/-- The normal form brings in no markers, and no automatic rule has variadic trains. -/
structure KeepsPlain (settings : Settings) : Prop where
  normalizer : ∀ e : Expr, e.Plain → (settings.normalize e).Plain
  rules : ∀ id ∈ settings.catalog.auto, ∀ rule, settings.catalog.rule? id = some rule →
    rule.statement.WellShaped ∧ ¬rule.statement.HasVariadicTrain

theorem AutoRun.plain (keeps : settings.KeepsPlain) {e last : Expr} {lines : List Line}
    (run : settings.AutoRun e lines last) (plain : e.Plain) : last.Plain := by
  induction run with
  | done e => exact plain
  | step next _ ih =>
      obtain ⟨id, listed, rule, known, address, result, applied, rfl⟩ := next.origin
      obtain ⟨shaped, absent⟩ := keeps.rules id listed rule known
      exact ih (keeps.normalizer _ (Rule.plain_of_applyAt shaped absent plain applied))

theorem push_returns (keeps : settings.KeepsPlain) (history : History) (action : Action) {e : Expr}
    (plain : e.Plain) : (settings.push history action e).result = .ok () := by
  obtain ⟨added, last, _, _, run, ends⟩ := settings.push_runs history action e
  have lastPlain := run.plain keeps (keeps.normalizer e plain)
  cases result : (settings.push history action e).result with
  | ok _ => rfl
  | error fault =>
      rw [result] at ends
      obtain ⟨trial, tried, raised, notSkipped⟩ := ends
      obtain ⟨listed, known, _⟩ := rule?_of_mem_trialsOf tried
      obtain ⟨shaped, absent⟩ := keeps.rules _ listed _ known
      obtain ⟨cause, rfl⟩ := (Rule.applyAt_ends_of_plain shaped absent lastPlain).fault raised
      exact absurd ⟨cause, raised⟩ notSkipped

end

/-- A step of the user is atomic exactly when pushing what it produces raises nothing, and it raises
nothing where neither what is pushed nor an automatic rule has variadic markers. -/
theorem steps_are_atomic (settings : Settings) (history : History) :
    (∀ id address, (settings.applyRule history id address).IsAtomic history ↔
      ∀ rule e result, settings.catalog.rule? id = some rule → history.last? = some e →
        rule.applyAt e address = .ok result →
          (settings.push history (.rule rule.label) result).result = .ok ()) ∧
    (∀ selection index, (settings.takeSuggestion history selection index).IsAtomic history ↔
      ∀ available action e, settings.suggestions history selection = .ok available →
        Index.forward? available index = some (action, e) →
          (settings.push history action e).result = .ok ()) ∧
    (settings.normalizer = keep ∨ settings.normalizer = Expr.normalize →
      (∀ id ∈ settings.catalog.auto, ∀ rule, settings.catalog.rule? id = some rule →
        rule.statement.WellShaped ∧ ¬rule.statement.HasVariadicTrain) →
          ∀ action e, e.Plain → (settings.push history action e).result = .ok ()) := by
  refine ⟨applyRule_atomic_iff, takeSuggestion_atomic_iff, ?_⟩
  intro normalizer rules action e plain
  refine push_returns ⟨?_, rules⟩ history action plain
  intro e plain
  rcases normalizer with same | same
  · simpa [Settings.normalize, same, keep] using plain
  · simpa [Settings.normalize, same] using plain.normalize settings.context

/-- A factor 1 is dropped by the user, and then a zero by an automatic rule. -/
theorem steps_are_atomic_neutral :
    let addition : Rule := ⟨"add_zero", "Addition with 0", .equation,
      binary "+" (var "X") (const "0"), var "X"⟩
    let product : Rule := ⟨"mul_one", "Multiplication with 1", .equation,
      binary "*" (var "X") (const "1"), var "X"⟩
    let settings : Settings := ⟨Context.arithmetic [], Expr.normalize,
      ⟨[("add_zero", addition), ("mul_one", product)], [], ["add_zero"]⟩, .none, []⟩
    let history : History := [.byUser (.introduce none)
      (equation (binary "*" (binary "+" (var "x") (const "0")) (const "1")) (var "y"))]
    (settings.applyRule history "mul_one" ⟨[0], none⟩).IsAtomic history := by
  intro addition product settings history
  obtain ⟨applied, _, pushed⟩ := steps_are_atomic settings history
  refine (applied "mul_one" ⟨[0], none⟩).mpr ?_
  intro rule e result known last turned
  obtain rfl : product = rule := Option.some.inj known
  obtain rfl := Option.some.inj last
  have computed : product.applyAt
      (equation (binary "*" (binary "+" (var "x") (const "0")) (const "1")) (var "y")) ⟨[0], none⟩ =
        .ok (equation (binary "+" (var "x") (const "0")) (var "y")) := rfl
  obtain rfl := Except.ok.inj (computed.symm.trans turned)
  refine pushed (Or.inr rfl) ?_ _ _ (by decide)
  intro id listed rule known
  obtain rfl := List.mem_singleton.mp listed
  obtain rfl : addition = rule := Option.some.inj known
  decide

/-- The line of the user stays although an automatic rule has raised. -/
theorem applyRule_keeps_line :
    let addition : Rule := ⟨"add_zero", "Addition with 0", .equation,
      binary "+" (var "X") (const "0"), var "X"⟩
    let settings := Settings.ofCatalog (Context.arithmetic [])
      ⟨[("add_zero", addition), ("distribute", .distribution)], [], ["distribute"]⟩
    let product := binary "*" (var "x") (variadicTrain "+" (var "A"))
    let history : History := [.byUser (.introduce none)
      (equation product (binary "+" (var "y") (const "0")))]
    (settings.applyRule history "add_zero" ⟨[1], none⟩).result = .error (.shape .strayMarker) ∧
      (settings.applyRule history "add_zero" ⟨[1], none⟩).history =
        history ++ [.byUser (.rule "Addition with 0") (equation product (var "y"))] ∧
      ¬(settings.applyRule history "add_zero" ⟨[1], none⟩).IsAtomic history := by
  intro addition settings product history
  have raised : (settings.applyRule history "add_zero" ⟨[1], none⟩).result =
      .error (.shape .strayMarker) := by decide +kernel
  have grown : (settings.applyRule history "add_zero" ⟨[1], none⟩).history =
      history ++ [.byUser (.rule "Addition with 0") (equation product (var "y"))] := by
    decide +kernel
  refine ⟨raised, grown, ?_⟩
  rintro (⟨returned, _⟩ | ⟨_, same⟩)
  · simp [raised] at returned
  · simp [grown] at same

end Settings

end Stepwise
