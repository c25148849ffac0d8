import Stepwise.Proofs.Matching.Variadic

/-!
The instance test. It says yes exactly when one substitution turns two expansions of the pattern
into the subject: that of the match, whose copies share the fixed variables, and that of the
instance, whose copies share all names that are bound. Names that stay apart make the two the same.
-/

namespace Stepwise.Expr

theorem occurs_bound {shared bound : List String} {count : Nat} (within : shared ⊆ bound) {e : Expr}
    (binds : e.boundNames shared count ⊆ bound) {name : String}
    (occurs : name ∈ (e.expandAll bound count).occurrences false) : name ∈ bound := by
  induction e using templateInduction with
  | var symbol children =>
      apply binds
      simpa using occurs
  | variadicTrain symbol mark template =>
      obtain ⟨original, inTemplate, index, less, rfl⟩ := exists_original_of_mem_copies occurs
      by_cases known : original ∈ bound
      · rwa [copyName_of_mem known]
      · -- A name that is not bound is not shared, so the match has its copy as well.
        have unshared : original ∉ shared := fun member => known (within member)
        rw [copyName_of_not_mem known, ← copyName_of_not_mem unshared]
        apply binds
        rw [boundNames_variadicTrain, List.mem_cons, List.mem_flatMap]
        refine Or.inr ⟨_, (mem_copies _ _ _ _).mpr ⟨index, less, rfl⟩, ?_⟩
        rw [occurrences_rename]
        exact List.mem_map_of_mem inTemplate
  | other kind symbol children notVar plain each =>
      obtain ⟨child, inChildren, inside⟩ := exists_child_of_mem_expandAll notVar plain occurs
      refine each child inChildren (fun other bound => binds ?_) inside
      rw [boundNames_node _ _ _ _ _ notVar plain]
      exact List.mem_flatMap.mpr ⟨child, inChildren, bound⟩

theorem fixedVariables_subset_boundNames (e : Expr) (count : Nat) :
    e.fixedVariables ⊆ e.boundNames e.fixedVariables count :=
  fun name fixed => fixed_mem_boundNames _ _ e name ((mem_fixedVariables e name).mp fixed)

/-- One substitution turns both expansions of the pattern, to `count` copies, into the subject. -/
structure Expands (subject pattern : Expr) (count : Nat) (σ : String → Expr) : Prop where
  positive : 1 ≤ count
  counted : pattern.MarkerFree ∨ Literal.IsReadable count ∧ σ ellipsis = const (toString count)
  matched : (pattern.expandAll pattern.fixedVariables count).subst σ = subject
  rebuilt :
    (pattern.expandAll (pattern.boundNames pattern.fixedVariables count) count).subst σ = subject

theorem isReadable_of_arity {bindings : Bindings} {count : Nat}
    (counts : bindings.find? ellipsis = some (const (toString count)))
    (arity : bindings.arity = .ok (some (count : Int))) : Literal.IsReadable count := by
  simp only [Bindings.arity, counts, const, symbol_node] at arity
  by_cases long : Literal.maxDigits < (toString count).length
  · rw [Literal.readInt_toString, if_pos long] at arity
    simp at arity
  · exact Nat.not_lt.mp long

section

variable {subject pattern : Expr}

theorem mem_keys_iff_bound (shaped : pattern.WellShaped) (flat : pattern.FlatTemplates)
    {bindings : Bindings} {count : Nat} (counted : Counted bindings pattern count)
    (found : subject.bindings? pattern = some bindings) (name : String) :
    name ∈ bindings.keys ↔ name ∈ pattern.boundNames pattern.fixedVariables count := by
  rw [keys_of_bindings? shaped flat counted found, OrderedSet.mem_insertAll]
  simp

theorem expandAll_keys (shaped : pattern.WellShaped) (flat : pattern.FlatTemplates)
    {bindings : Bindings} {count : Nat} (counted : Counted bindings pattern count)
    (found : subject.bindings? pattern = some bindings) :
    pattern.expandAll bindings.keys count =
      pattern.expandAll (pattern.boundNames pattern.fixedVariables count) count :=
  expandAll_congr (fun name _ => mem_keys_iff_bound shaped flat counted found name) count

variable (subjectShaped : subject.WellShaped) (shaped : pattern.WellShaped)
  (root : pattern.isMarker = false) (flat : pattern.FlatTemplates)

include subjectShaped shaped root flat

theorem expands_of_isInstanceOf (yes : subject.isInstanceOf pattern = .ok true) :
    ∃ count σ, subject.Expands pattern count σ := by
  unfold isInstanceOf at yes
  cases found : subject.bindings? pattern with
  | none => simp [found] at yes
  | some bindings =>
      rw [found] at yes
      obtain ⟨image, built, same⟩ := Attempt.bind_eq_ok.mp yes
      obtain rfl : image = subject := of_decide_eq_true (Except.ok.inj same)
      obtain ⟨count, counted⟩ := exists_counted subjectShaped shaped root found
      have matched := subst_of_bindings? subjectShaped shaped flat counted found
      refine ⟨count, bindings.toSubst, ?_⟩
      by_cases free : pattern.MarkerFree
      · refine ⟨counted.1, Or.inl free, matched, ?_⟩
        rwa [free.expandAll_eq] at matched ⊢
      · have variadic : pattern.HasVariadicTrain := Classical.byContradiction fun absent =>
          free (markerFree_of_not_hasVariadicTrain shaped root absent)
        have arity := counted.arity_eq free (arity_of_instantiate_ok shaped variadic built)
        have readable := isReadable_of_arity (counted.2.resolve_left free) arity
        refine ⟨counted.1, Or.inr ⟨readable, counted.toSubst.resolve_left free⟩, matched, ?_⟩
        rw [← expandAll_keys shaped flat counted found]
        exact subst_expandAll_of_instantiate counted.1 arity shaped flat built

theorem instantiate_of_expands {count : Nat} {σ : String → Expr}
    (expands : subject.Expands pattern count σ) {bindings : Bindings}
    (found : subject.bindings? pattern = some bindings) (agrees : bindings.AgreesWith σ) :
    pattern.instantiate bindings = .ok subject := by
  rcases expands.counted with free | ⟨readable, counts⟩
  · exact instantiate_of_markerFree subjectShaped shaped free found
  · obtain ⟨number, positive, numbered⟩ := exists_counted subjectShaped shaped root found
    by_cases free : pattern.MarkerFree
    · exact instantiate_of_markerFree subjectShaped shaped free found
    have known := numbered.resolve_left free
    obtain rfl : count = number := by
      have same := agrees _ _ known
      rw [counts, const, const, node.injEq] at same
      exact Literal.toString_injective same.2.1
    have counted : Counted bindings pattern count := ⟨positive, Or.inr known⟩
    have image : (pattern.expandAll bindings.keys count).subst bindings.toSubst = subject := by
      rw [expandAll_keys shaped flat counted found, ← expands.rebuilt]
      apply subst_congr
      intro name occurs
      have bound := occurs_bound (fixedVariables_subset_boundNames pattern count)
        (fun _ member => member) occurs
      obtain ⟨value, here⟩ := (Table.mem_keys_iff bindings name).mp
        ((mem_keys_iff_bound shaped flat counted found name).mpr bound)
      rw [Bindings.toSubst, here, Option.getD_some, agrees name value here]
    rw [instantiate_eq_subst_expandAll bindings positive (arity_of_counted known readable) pattern
      shaped flat (image.symm ▸ subjectShaped), image]

theorem isInstanceOf_of_expands {count : Nat} {σ : String → Expr}
    (expands : subject.Expands pattern count σ) : subject.isInstanceOf pattern = .ok true := by
  obtain ⟨bindings, found, agrees⟩ := bindings?_of_subst subjectShaped shaped flat σ
    (expands.counted.imp_right And.right) expands.matched
  rw [isInstanceOf, found]
  refine Attempt.bind_eq_ok.mpr ⟨subject, ?_, congrArg Except.ok (decide_eq_true rfl)⟩
  exact instantiate_of_expands subjectShaped shaped root flat expands found agrees

theorem isInstanceOf_iff :
    subject.isInstanceOf pattern = .ok true ↔ ∃ count σ, subject.Expands pattern count σ :=
  ⟨expands_of_isInstanceOf subjectShaped shaped root flat,
    fun ⟨_, _, expands⟩ => isInstanceOf_of_expands subjectShaped shaped root flat expands⟩

end

end Stepwise.Expr
