import Stepwise.Proofs.Matching.Found

/-!
Patterns with variadic trains. A match exists exactly when the pattern becomes the subject by
expanding all its trains to one number of copies and substituting; that number is then recorded,
and the instance of the pattern is the subject again.
-/

namespace Stepwise.Expr

theorem occurrences_expandAll_cases {shared : List String} {count : Nat} {e : Expr} {name : String}
    (occurs : name ∈ (e.expandAll shared count).occurrences false) :
    ∃ original ∈ e.occurrences false,
      name = original ∨ ∃ index : Nat, name = copyName shared (index : Int) original := by
  induction e using templateInduction with
  | var symbol children => exact ⟨name, by simpa using occurs, Or.inl rfl⟩
  | variadicTrain symbol mark template =>
      obtain ⟨original, inTemplate, index, _, same⟩ := exists_original_of_mem_copies occurs
      exact ⟨original, mem_occurrences_of_template inTemplate, Or.inr ⟨index + 1, same.symm⟩⟩
  | other kind symbol children notVar plain each =>
      obtain ⟨child, inChildren, inside⟩ := exists_child_of_mem_expandAll notVar plain occurs
      obtain ⟨original, below, same⟩ := each child inChildren inside
      exact ⟨original, mem_occurrences_of_child notVar inChildren below, same⟩

theorem ellipsis_not_mem_expandAll {e : Expr} (absent : ellipsis ∉ e.variableNames)
    (shared : List String) (count : Nat) :
    ellipsis ∉ (e.expandAll shared count).occurrences false := by
  intro occurs
  obtain ⟨original, member, same⟩ := occurrences_expandAll_cases occurs
  rw [← mem_variableNames] at member
  have notOriginal : ellipsis ≠ original := by
    rintro rfl
    exact absent member
  rcases same with same | ⟨index, same⟩
  · exact notOriginal same
  · exact copyName_ne_ellipsis notOriginal.symm shared index same.symm

def counting (count : Nat) (σ : String → Expr) (name : String) : Expr :=
  if name = ellipsis then const (toString count) else σ name

theorem counting_ellipsis (count : Nat) (σ : String → Expr) :
    counting count σ ellipsis = const (toString count) := by
  simp [counting]

theorem subst_counting {e : Expr} (absent : ellipsis ∉ e.occurrences false) (count : Nat)
    (σ : String → Expr) : e.subst (counting count σ) = e.subst σ := by
  apply subst_congr
  intro name occurs
  have other : name ≠ ellipsis := by
    rintro rfl
    exact absent occurs
  simp [counting, other]

theorem isMarker_eq_false_of_hasVariadicTrain {e : Expr} (flat : e.FlatTemplates)
    (variadic : e.HasVariadicTrain) : e.isMarker = false := by
  obtain ⟨kind, symbol, children⟩ := e
  rw [isMarker_node, decide_eq_false_iff_not]
  rintro rfl
  rcases (hasVariadicTrain_node _ _ _).mp variadic with here | ⟨child, member, below⟩
  · simp [isVariadicTrain, template?] at here
  · exact (((flatTemplates_node _ _ _).mp flat).1 rfl child member).not_hasVariadicTrain below

section

variable {subject pattern : Expr}

theorem counts_of_subst (subjectShaped : subject.WellShaped) (shaped : pattern.WellShaped)
    (flat : pattern.FlatTemplates) (absent : ellipsis ∉ pattern.variableNames) {count : Nat}
    {σ : String → Expr}
    (same : (pattern.expandAll pattern.fixedVariables count).subst σ = subject) :
    ∃ bindings, subject.bindings? pattern = some bindings ∧
      bindings.AgreesWith (counting count σ) := by
  refine bindings?_of_subst subjectShaped shaped flat (counting count σ)
    (Or.inr (counting_ellipsis count σ)) ?_
  rw [subst_counting (ellipsis_not_mem_expandAll absent _ _), same]

theorem find?_ellipsis_of_subst (subjectShaped : subject.WellShaped) (shaped : pattern.WellShaped)
    (flat : pattern.FlatTemplates) (variadic : pattern.HasVariadicTrain)
    (absent : ellipsis ∉ pattern.variableNames) {bindings : Bindings}
    (found : subject.bindings? pattern = some bindings) {count : Nat} {σ : String → Expr}
    (same : (pattern.expandAll pattern.fixedVariables count).subst σ = subject) :
    bindings.find? ellipsis = some (const (toString count)) := by
  obtain ⟨others, foundOthers, agrees⟩ := counts_of_subst subjectShaped shaped flat absent same
  obtain rfl := Option.some.inj (found.symm.trans foundOthers)
  obtain ⟨number, _, counted⟩ := matchNode_counts pattern.fixedVariables subject
    subjectShaped.trainLengths pattern shaped variadic [] bindings found
  rw [counted, ← agrees ellipsis _ counted, counting_ellipsis]

end

/-- Variadic matching and variadic instantiation agree. The number of copies is recorded as a
numeral, and only a numeral of at most `Literal.maxDigits` digits can be read back. -/
theorem variadic_match (subject pattern : Expr) (subjectShaped : subject.WellShaped)
    (shaped : pattern.WellShaped) (variadic : pattern.HasVariadicTrain)
    (flat : pattern.FlatTemplates) (separate : Separate pattern.variableNames) :
    ((∃ bindings, subject.bindings? pattern = some bindings) ↔
      ∃ count, 1 ≤ count ∧ ∃ σ : String → Expr,
        (pattern.expandAll pattern.fixedVariables count).subst σ = subject) ∧
    ∀ bindings, subject.bindings? pattern = some bindings →
      ∀ count, 1 ≤ count → ∀ σ : String → Expr,
        (pattern.expandAll pattern.fixedVariables count).subst σ = subject →
          bindings.find? ellipsis = some (const (toString count)) ∧
          (Literal.IsReadable count →
            bindings.arity = .ok (some (count : Int)) ∧
              pattern.instantiate bindings = .ok subject) := by
  have root := isMarker_eq_false_of_hasVariadicTrain flat variadic
  refine ⟨⟨?_, ?_⟩, ?_⟩
  · rintro ⟨bindings, found⟩
    obtain ⟨count, counted⟩ := exists_counted subjectShaped shaped root found
    exact ⟨count, counted.1, bindings.toSubst,
      subst_of_bindings? subjectShaped shaped flat counted found⟩
  · rintro ⟨count, _, σ, same⟩
    obtain ⟨bindings, found, _⟩ := counts_of_subst subjectShaped shaped flat separate.1 same
    exact ⟨bindings, found⟩
  · intro bindings found count positive σ same
    have counts := find?_ellipsis_of_subst subjectShaped shaped flat variadic separate.1 found same
    refine ⟨counts, ?_⟩
    intro readable
    have arity := arity_of_counted counts readable
    exact ⟨arity, instantiate_of_bindings? subjectShaped shaped root flat separate found
      ⟨positive, Or.inr counts⟩ (Or.inr arity)⟩

def twoProducts : Expr :=
  equation (train "+" [binary "*" (var "a") (var "p"), binary "*" (var "a") (var "q")])
    (binary "*" (var "a") (train "+" [var "p", var "q"]))

def productsPattern : Expr :=
  equation (variadicTrain "+" (binary "*" (var "X") (var "A")))
    (binary "*" (var "X") (variadicTrain "+" (var "A")))

/-- Two trains that share a variable, matched with two copies each. -/
theorem variadic_match_shared :
    ∃ bindings, twoProducts.bindings? productsPattern = some bindings ∧
      bindings.arity = .ok (some 2) := by
  have matched := variadic_match twoProducts productsPattern (by decide) (by decide) (by decide)
    (by decide) (Separate.of_no_underscore (by decide) (by decide))
  have becomes : (productsPattern.expandAll productsPattern.fixedVariables 2).subst (fun name =>
      if name = "X" then var "a" else if name = "A_1" then var "p" else var "q") = twoProducts := by
    decide
  obtain ⟨bindings, found⟩ := matched.1.mpr ⟨2, by decide, _, becomes⟩
  refine ⟨bindings, found, ?_⟩
  exact ((matched.2 bindings found 2 (by decide) _ becomes).2 (by decide)).1

end Stepwise.Expr
