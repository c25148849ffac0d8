import Stepwise.Proofs.Matching.Found

/-!
First-order matching: patterns without markers. A match exists exactly when some substitution turns
the pattern into the subject, and what it binds is then forced by every such substitution.
-/

namespace Stepwise.Expr

section

variable {subject pattern : Expr}

theorem bindings?_isSome_iff_subst (subjectShaped : subject.WellShaped)
    (shaped : pattern.WellShaped) (plain : pattern.MarkerFree) :
    (∃ bindings, subject.bindings? pattern = some bindings) ↔
      ∃ σ : String → Expr, pattern.subst σ = subject := by
  constructor
  · rintro ⟨bindings, found⟩
    exact ⟨bindings.toSubst, subst_of_markerFree subjectShaped shaped plain found⟩
  · rintro ⟨σ, same⟩
    rw [← plain.expandAll_eq pattern.fixedVariables 1] at same
    obtain ⟨bindings, found, _⟩ :=
      bindings?_of_subst subjectShaped shaped plain.flatTemplates σ (Or.inl plain) same
    exact ⟨bindings, found⟩

theorem keys_of_markerFree (shaped : pattern.WellShaped) (plain : pattern.MarkerFree)
    {bindings : Bindings} (found : subject.bindings? pattern = some bindings) :
    bindings.keys = pattern.variableNames := by
  rw [keys_of_bindings? shaped plain.flatTemplates ⟨Nat.le_refl 1, Or.inl plain⟩ found,
    plain.boundNames_eq, variableNames, variablesAfter_eq]

theorem find?_of_subst (subjectShaped : subject.WellShaped) (shaped : pattern.WellShaped)
    (plain : pattern.MarkerFree) {bindings : Bindings}
    (found : subject.bindings? pattern = some bindings) {σ : String → Expr}
    (same : pattern.subst σ = subject) {name : String} (occurs : name ∈ pattern.variableNames) :
    bindings.find? name = some (σ name) := by
  rw [← plain.expandAll_eq pattern.fixedVariables 1] at same
  obtain ⟨others, foundOthers, agrees⟩ :=
    bindings?_of_subst subjectShaped shaped plain.flatTemplates σ (Or.inl plain) same
  obtain rfl := Option.some.inj (found.symm.trans foundOthers)
  rw [← keys_of_markerFree shaped plain found, Table.mem_keys_iff] at occurs
  obtain ⟨value, bound⟩ := occurs
  rw [bound, agrees name value bound]

end

/-- First-order matching is sound, complete and most general. Trees of the wrong shape, which
cannot be built, are left out. -/
theorem firstOrder_match (subject pattern : Expr) (subjectShaped : subject.WellShaped)
    (shaped : pattern.WellShaped) (plain : pattern.MarkerFree) :
    ((∃ bindings, subject.bindings? pattern = some bindings) ↔
      ∃ σ : String → Expr, pattern.subst σ = subject) ∧
    ∀ bindings, subject.bindings? pattern = some bindings →
      bindings.keys = pattern.variableNames ∧
      pattern.instantiate bindings = .ok subject ∧
      ∀ σ : String → Expr, pattern.subst σ = subject →
        ∀ name ∈ pattern.variableNames, bindings.find? name = some (σ name) := by
  refine ⟨bindings?_isSome_iff_subst subjectShaped shaped plain, ?_⟩
  intro bindings found
  refine ⟨keys_of_markerFree shaped plain found,
    instantiate_of_markerFree subjectShaped shaped plain found, ?_⟩
  intro σ same name occurs
  exact find?_of_subst subjectShaped shaped plain found same occurs

/-- A repeated variable meets two equal parts that hold a variable of the same name. -/
theorem firstOrder_match_repeated :
    (∃ bindings,
      (binary "+" (unary "-" (var "x")) (unary "-" (var "x"))).bindings?
        (binary "+" (var "x") (var "x")) = some bindings ∧
      bindings.keys = ["x"]) := by
  have matched := firstOrder_match (binary "+" (unary "-" (var "x")) (unary "-" (var "x")))
    (binary "+" (var "x") (var "x")) (by decide) (by decide) (by decide)
  obtain ⟨bindings, found⟩ := matched.1.mpr ⟨fun _ => unary "-" (var "x"), by
    simp [binary, var, subst_node]⟩
  exact ⟨bindings, found, (matched.2 bindings found).1.trans (by decide)⟩

end Stepwise.Expr
