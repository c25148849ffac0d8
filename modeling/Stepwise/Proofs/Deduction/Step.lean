import Stepwise.Proofs.Deduction.Settled

/-!
Steps are matching and instantiation: a step by an equation or by an implication yields the
instance of one side under the match of the other, and it fails exactly when there is no match.
-/

namespace Stepwise.Expr

theorem anyContainsVariable_eq_false (es : List Expr) :
    anyContainsVariable es = false ↔ ∀ e ∈ es, e.containsVariable = false := by
  induction es with
  | nil => simp [anyContainsVariable]
  | cons e es ih => simp [anyContainsVariable, ih]

theorem occurrences_of_closed {e : Expr} (closed : e.containsVariable = false) :
    e.occurrences false = [] := by
  induction e using Expr.induction with
  | node kind symbol children each =>
      by_cases isVar : kind = .var
      · subst isVar
        simp [containsVariable] at closed
      · rw [containsVariable, anyContainsVariable_eq_false] at closed
        · rw [occurrences_node _ _ _ _ isVar]
          simpa using fun child member => each child member (closed child member)
        · exact isVar

theorem subst_of_closed {e : Expr} (shaped : e.WellShaped) (closed : e.containsVariable = false)
    (σ : String → Expr) : e.subst σ = e := by
  have same : e.subst σ = e.subst var := by
    apply subst_congr
    simp [occurrences_of_closed closed]
  rw [same, subst_var_self e shaped]

section

variable {e premise conclusion : Expr} {bindings : Bindings}

theorem eq_of_closed_found (plain : e.Plain) (premisePlain : premise.Plain)
    (closed : premise.containsVariable = false) (found : e.bindings? premise = some bindings) :
    premise = e ∧ bindings.toSubst = var := by
  have image := subst_of_markerFree plain.1 premisePlain.1 premisePlain.2 found
  rw [subst_of_closed premisePlain.1 closed] at image
  refine ⟨image, ?_⟩
  subst image
  obtain ⟨others, foundOthers, identity⟩ := bindings?_self plain
  obtain rfl := Option.some.inj (found.symm.trans foundOthers)
  exact identity

theorem infer_closed (closed : premise.containsVariable = false) :
    e.infer (implication premise conclusion) =
      if premise = e then .ok conclusion
      else Attempt.stepFault (.premiseMismatch premise e) := by
  rw [infer]
  simp only [implicationSides?, implication, closed, Bool.false_eq_true, if_false]

theorem infer_of_instances (open' : premise.containsVariable = true)
    (found : e.bindings? premise = some bindings) (left : premise.instantiate bindings = .ok e)
    {image : Expr} (right : conclusion.instantiate bindings = .ok image)
    (root : e.isMarker = false) (imageRoot : image.isMarker = false) :
    e.infer (implication premise conclusion) = .ok image := by
  rw [infer]
  simp only [implicationSides?, implication]
  rw [if_pos open', matchHere_of_found found]
  simp only [bind, Except.bind, left, right, build_two (Or.inr rfl) "=>" root imageRoot]
  rfl

theorem infer_of_found (plain : e.Plain) (premisePlain : premise.Plain)
    (conclusionPlain : conclusion.Plain) (found : e.bindings? premise = some bindings) :
    conclusion.instantiate bindings = .ok (conclusion.subst bindings.toSubst) ∧
      e.infer (implication premise conclusion) = .ok (conclusion.subst bindings.toSubst) := by
  have values := plain_toSubst plain found
  have right := instantiate_eq_subst bindings conclusion conclusionPlain.1
    (Or.inl conclusionPlain.2) (subst_plain conclusionPlain.1 values)
  refine ⟨right, ?_⟩
  by_cases closed : premise.containsVariable = false
  · obtain ⟨rfl, identity⟩ := eq_of_closed_found plain premisePlain closed found
    rw [infer_closed closed, if_pos rfl, identity, subst_var_self conclusion conclusionPlain.1]
  · have left := instantiate_of_markerFree plain.1 premisePlain.1 premisePlain.2 found
    have root := isMarker_subst_plain conclusionPlain.2.isMarker_eq_false values
    exact infer_of_instances (by simpa using closed) found left right
      plain.2.isMarker_eq_false root

theorem infer_of_none (absent : e.bindings? premise = none)
    (open' : premise.containsVariable = true) :
    e.infer (implication premise conclusion) = Attempt.stepFault (.noMatch premise e) := by
  rw [infer]
  simp only [implicationSides?, implication]
  rw [if_pos open', matchHere_of_none absent]
  rfl

theorem infer_eq_of_none (plain : e.Plain)
    (absent : e.bindings? premise = none) :
    e.infer (implication premise conclusion) = Attempt.stepFault
      (if premise.containsVariable then .noMatch premise e else .premiseMismatch premise e) := by
  cases closed : premise.containsVariable with
  | true => rw [infer_of_none absent closed, if_pos rfl]
  | false =>
      have differ : premise ≠ e := by
        rintro rfl
        obtain ⟨bindings, found, _⟩ := bindings?_self plain
        simp [found] at absent
      rw [infer_closed closed, if_neg differ, if_neg Bool.false_ne_true]

theorem areInstances_of_infer (plain : e.Plain) (premisePlain : premise.Plain)
    (conclusionPlain : conclusion.Plain) {image : Expr}
    (stepped : e.infer (implication premise conclusion) = .ok image) :
    ∃ bindings, e.bindings? premise = some bindings ∧
      AreInstances premise conclusion bindings.toSubst e image := by
  cases found : e.bindings? premise with
  | none =>
      rw [infer_eq_of_none plain found] at stepped
      exact absurd stepped (Attempt.stepFault_ne_ok _ _)
  | some bindings =>
      obtain ⟨_, same⟩ := infer_of_found plain premisePlain conclusionPlain found
      have left := subst_of_markerFree plain.1 premisePlain.1 premisePlain.2 found
      exact ⟨bindings, rfl, Or.inl ⟨premisePlain.2, left, Except.ok.inj (same.symm.trans stepped)⟩⟩

end

/-- An attempt yields exactly the instances of one side under a match of the other, and it does
yield one wherever there is a match. -/
structure IsInstanceStep (e pattern other : Expr) (attempt : Attempt Expr) : Prop where
  yields : ∀ image, attempt = .ok image ↔
    ∃ bindings, e.bindings? pattern = some bindings ∧ other.instantiate bindings = .ok image
  total : ∀ bindings, e.bindings? pattern = some bindings → ∃ image, attempt = .ok image

theorem isInstanceStep_of_cases {e pattern other : Expr} {attempt : Attempt Expr}
    (found : ∀ bindings, e.bindings? pattern = some bindings →
      ∃ image, other.instantiate bindings = .ok image ∧ attempt = .ok image)
    (absent : e.bindings? pattern = none → ∀ image, attempt ≠ .ok image) :
    IsInstanceStep e pattern other attempt := by
  constructor
  · intro image
    constructor
    · intro yielded
      cases known : e.bindings? pattern with
      | none => exact absurd yielded (absent known image)
      | some bindings =>
          obtain ⟨other, built, same⟩ := found bindings known
          obtain rfl := Except.ok.inj (yielded.symm.trans same)
          exact ⟨bindings, rfl, built⟩
    · rintro ⟨bindings, known, built⟩
      obtain ⟨other, builtOther, same⟩ := found bindings known
      obtain rfl := Except.ok.inj (built.symm.trans builtOther)
      exact same
  · intro bindings known
    obtain ⟨image, _, same⟩ := found bindings known
    exact ⟨image, same⟩

/-- The number of terms of every train has a numeral that can be read back. -/
def Countable (e : Expr) : Prop := e.TrainLengths Literal.IsReadable

instance (e : Expr) : Decidable e.Countable := inferInstanceAs (Decidable (_ = true))

theorem readable_of_countable {e pattern : Expr} (countable : pattern.MarkerFree ∨ e.Countable)
    (shaped : pattern.WellShaped) (root : pattern.isMarker = false) {bindings : Bindings}
    (found : e.bindings? pattern = some bindings) :
    pattern.MarkerFree ∨ ∃ arity, bindings.arity = .ok arity := by
  by_cases variadic : pattern.HasVariadicTrain
  · rcases countable with free | countable
    · exact Or.inl free
    · obtain ⟨count, readable, counts⟩ := matchNode_counts pattern.fixedVariables e countable pattern
        shaped variadic [] bindings found
      exact Or.inr ⟨_, arity_of_counted counts readable⟩
  · exact Or.inl (markerFree_of_not_hasVariadicTrain shaped root variadic)

theorem byEquation_isInstanceStep {e lhs rhs : Expr} (sides : Sides lhs rhs) (plain : e.Plain)
    (countable : lhs.MarkerFree ∨ e.Countable) :
    IsInstanceStep e lhs rhs (e.byEquation (equation lhs rhs)) := by
  apply isInstanceStep_of_cases
  · intro bindings found
    obtain ⟨shaped, root, _⟩ := sides.left
    obtain ⟨image, built, same, _⟩ := byEquation_of_found sides plain found
      (readable_of_countable countable shaped root found)
    exact ⟨image, built, same⟩
  · intro absent image yielded
    rw [byEquation_of_none plain absent] at yielded
    exact absurd yielded (Attempt.stepFault_ne_ok _ _)

theorem infer_isInstanceStep {e premise conclusion : Expr} (plain : e.Plain)
    (premisePlain : premise.Plain) (conclusionPlain : conclusion.Plain) :
    IsInstanceStep e premise conclusion (e.infer (implication premise conclusion)) := by
  apply isInstanceStep_of_cases
  · intro bindings found
    obtain ⟨built, same⟩ := infer_of_found plain premisePlain conclusionPlain found
    exact ⟨_, built, same⟩
  · intro absent image yielded
    rw [infer_eq_of_none plain absent] at yielded
    exact absurd yielded (Attempt.stepFault_ne_ok _ _)

theorem sides_plain_of_implication {premise conclusion : Expr}
    (shaped : (implication premise conclusion).WellShaped)
    (absent : ¬(implication premise conclusion).HasVariadicTrain) :
    premise.Plain ∧ conclusion.Plain :=
  statement_plain shaped absent

/-- Steps by equations and by implications are matching followed by instantiation. Where copies
are counted their number is recorded as a numeral, which is read back if it is not too long. -/
theorem steps_are_instances (e : Expr) (shaped : e.WellShaped) (free : e.MarkerFree) :
    (∀ lhs rhs, (equation lhs rhs).WellShaped → (equation lhs rhs).FlatTemplates →
      Separate (equation lhs rhs).variableNames → lhs.MarkerFree ∨ e.Countable →
        IsInstanceStep e lhs rhs (e.byEquation (equation lhs rhs)) ∧
        (e.bindings? lhs = none →
          e.byEquation (equation lhs rhs) = Attempt.stepFault (.noMatch lhs e))) ∧
    (∀ premise conclusion, (implication premise conclusion).WellShaped →
      ¬(implication premise conclusion).HasVariadicTrain →
        IsInstanceStep e premise conclusion (e.infer (implication premise conclusion)) ∧
        (e.bindings? premise = none →
          e.infer (implication premise conclusion) = Attempt.stepFault
            (if premise.containsVariable then .noMatch premise e
             else .premiseMismatch premise e)) ∧
        (premise.containsVariable = false → premise ≠ e → e.bindings? premise = none)) := by
  have plain : e.Plain := ⟨shaped, free⟩
  constructor
  · intro lhs rhs sidesShaped flat separate countable
    exact ⟨byEquation_isInstanceStep ⟨sidesShaped, flat, separate⟩ plain countable,
      byEquation_of_none plain⟩
  · intro premise conclusion sidesShaped absent
    obtain ⟨premisePlain, conclusionPlain⟩ := sides_plain_of_implication sidesShaped absent
    refine ⟨infer_isInstanceStep plain premisePlain conclusionPlain, infer_eq_of_none plain, ?_⟩
    intro closed differ
    cases found : e.bindings? premise with
    | none => rfl
    | some bindings => exact absurd (eq_of_closed_found plain premisePlain closed found).1 differ

/-- A common factor is taken out of a sum of two products. -/
theorem steps_are_instances_factor :
    ∃ image, (train "+" [binary "*" (var "a") (var "p"), binary "*" (var "a") (var "q")]).byEquation
      (equation (variadicTrain "+" (binary "*" (var "X") (var "A")))
        (binary "*" (var "X") (variadicTrain "+" (var "A")))) = .ok image := by
  obtain ⟨bindings, found⟩ := Option.isSome_iff_exists.mp (by decide :
    ((train "+" [binary "*" (var "a") (var "p"), binary "*" (var "a") (var "q")]).bindings?
      (variadicTrain "+" (binary "*" (var "X") (var "A")))).isSome = true)
  refine ((steps_are_instances _ (by decide) (by decide)).1 _ _ ?_ ?_ ?_ (Or.inr ?_)).1.total
    bindings found
  · decide
  · decide
  · exact Separate.of_no_underscore (by decide) (by decide)
  · decide

end Stepwise.Expr
