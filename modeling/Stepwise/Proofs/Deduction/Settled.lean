import Stepwise.Deduction
import Stepwise.Proofs.Expr.Places
import Stepwise.Proofs.Matching.Found
import Stepwise.Proofs.Matching.Values

/-!
A step by an equation is the instance of its right side under the match of its left side. The
grounding of the equation closes on its second pass, or at once where the left side already is the
target; then the match binds every variable to itself.
-/

namespace Stepwise.Expr

theorem mem_variableNames_equation (lhs rhs : Expr) (name : String) :
    name ∈ (equation lhs rhs).variableNames ↔
      name ∈ lhs.variableNames ∨ name ∈ rhs.variableNames := by
  rw [mem_variableNames, mem_variableNames, mem_variableNames, equation,
    occurrences_node _ _ _ _ (by decide)]
  simp

theorem statement_wellShaped (symbol : String) (first second : Expr) :
    (node .statement symbol [first, second]).WellShaped ↔ first.IsOperand ∧ second.IsOperand := by
  rw [wellShaped_iff_of_plain rfl]
  simp [countFault?]

theorem statement_plain {symbol : String} {first second : Expr}
    (shaped : (node .statement symbol [first, second]).WellShaped)
    (absent : ¬(node .statement symbol [first, second]).HasVariadicTrain) :
    first.Plain ∧ second.Plain := by
  have both : (node .statement symbol [first, second]).Plain :=
    ⟨shaped, markerFree_of_not_hasVariadicTrain shaped rfl absent⟩
  exact ⟨both.child (by simp), both.child (by simp)⟩

structure Sides (lhs rhs : Expr) : Prop where
  shaped : (equation lhs rhs).WellShaped
  flat : (equation lhs rhs).FlatTemplates
  separate : Separate (equation lhs rhs).variableNames

section

variable {lhs rhs : Expr}

theorem Sides.left (sides : Sides lhs rhs) :
    lhs.WellShaped ∧ lhs.isMarker = false ∧ lhs.FlatTemplates := by
  obtain ⟨⟨shaped, root⟩, _⟩ := (statement_wellShaped "=" lhs rhs).mp sides.shaped
  exact ⟨shaped, root, sides.flat.child (by simp)⟩

theorem Sides.right (sides : Sides lhs rhs) :
    rhs.WellShaped ∧ rhs.isMarker = false ∧ rhs.FlatTemplates := by
  obtain ⟨_, shaped, root⟩ := (statement_wellShaped "=" lhs rhs).mp sides.shaped
  exact ⟨shaped, root, sides.flat.child (by simp)⟩

theorem Sides.separate_left (sides : Sides lhs rhs) : Separate lhs.variableNames := by
  have within (name : String) (member : name ∈ lhs.variableNames) :
      name ∈ (equation lhs rhs).variableNames :=
    (mem_variableNames_equation lhs rhs name).mpr (Or.inl member)
  refine ⟨fun member => sides.separate.1 (within _ member), ?_⟩
  intro name member other inNames index
  exact sides.separate.2 name (within name member) other (within other inNames) index

end

/-- The two trees are the sides under a substitution, expanded to one number of copies if the left
side has variadic trains. -/
def AreInstances (lhs rhs : Expr) (σ : String → Expr) (left right : Expr) : Prop :=
  (lhs.MarkerFree ∧ lhs.subst σ = left ∧ rhs.subst σ = right) ∨
    ∃ count, 1 ≤ count ∧ (lhs.expandAll lhs.fixedVariables count).subst σ = left ∧
      (rhs.expandAll lhs.fixedVariables count).subst σ = right

theorem subst_plain {e : Expr} (shaped : e.WellShaped) {σ : String → Expr}
    (values : ∀ name, (σ name).Plain) : (e.subst σ).WellShaped :=
  shaped.subst σ (fun name => (values name).1) (fun name => (values name).2.isMarker_eq_false)

theorem isMarker_subst_plain {e : Expr} (root : e.isMarker = false) {σ : String → Expr}
    (values : ∀ name, (σ name).Plain) : (e.subst σ).isMarker = false := by
  rw [isMarker_subst σ (fun name => (values name).2.isMarker_eq_false), root]

section

variable {e lhs rhs : Expr} {bindings : Bindings}

theorem instances_of_markerFree (sides : Sides lhs rhs) (plain : e.Plain)
    (found : e.bindings? lhs = some bindings) (free : lhs.MarkerFree) :
    rhs.instantiate bindings = .ok (rhs.subst bindings.toSubst) ∧
      AreInstances lhs rhs bindings.toSubst e (rhs.subst bindings.toSubst) := by
  obtain ⟨shaped, _, _⟩ := sides.left
  obtain ⟨otherShaped, _, _⟩ := sides.right
  have unbound : bindings.arity = .ok none :=
    arity_of_unbound (ellipsis_not_mem_keys shaped free found sides.separate_left.1)
  refine ⟨?_, Or.inl ⟨free, subst_of_markerFree plain.1 shaped free found, rfl⟩⟩
  exact instantiate_eq_subst bindings rhs otherShaped (Or.inr unbound)
    (subst_plain otherShaped (plain_toSubst plain found))

theorem instances_of_counted (sides : Sides lhs rhs) (plain : e.Plain)
    (found : e.bindings? lhs = some bindings) {count : Nat} (counted : Counted bindings lhs count)
    (arity : bindings.arity = .ok (some (count : Int))) :
    rhs.instantiate bindings =
        .ok ((rhs.expandAll lhs.fixedVariables count).subst bindings.toSubst) ∧
      AreInstances lhs rhs bindings.toSubst e
        ((rhs.expandAll lhs.fixedVariables count).subst bindings.toSubst) := by
  obtain ⟨shaped, root, flat⟩ := sides.left
  obtain ⟨otherShaped, _, otherFlat⟩ := sides.right
  have shares : rhs.expandAll bindings.keys count = rhs.expandAll lhs.fixedVariables count := by
    apply expandAll_congr
    intro name occurs
    refine mem_keys_iff_fixed shaped root flat counted found sides.separate ?_ ?_
    · exact fun other member => (mem_variableNames_equation lhs rhs other).mpr (Or.inl member)
    · rw [mem_variableNames_equation, mem_variableNames rhs]
      exact Or.inr occurs
  have expandedShaped := otherShaped.expandAll otherFlat lhs.fixedVariables counted.1
  have image := subst_of_bindings? plain.1 shaped flat counted found
  refine ⟨?_, Or.inr ⟨count, counted.1, image, rfl⟩⟩
  rw [← shares] at expandedShaped ⊢
  exact instantiate_eq_subst_expandAll bindings counted.1 arity rhs otherShaped otherFlat
    (subst_plain expandedShaped (plain_toSubst plain found))

theorem instances_of_bindings? (sides : Sides lhs rhs) (plain : e.Plain)
    (found : e.bindings? lhs = some bindings)
    (readable : lhs.MarkerFree ∨ ∃ arity, bindings.arity = .ok arity) :
    lhs.instantiate bindings = .ok e ∧
      ∃ image, rhs.instantiate bindings = .ok image ∧ image.isMarker = false ∧
        AreInstances lhs rhs bindings.toSubst e image := by
  obtain ⟨shaped, root, flat⟩ := sides.left
  obtain ⟨_, otherRoot, _⟩ := sides.right
  have values := plain_toSubst plain found
  by_cases free : lhs.MarkerFree
  · obtain ⟨built, instances⟩ := instances_of_markerFree sides plain found free
    exact ⟨instantiate_of_markerFree plain.1 shaped free found, _, built,
      isMarker_subst_plain otherRoot values, instances⟩
  · obtain ⟨count, counted⟩ := exists_counted plain.1 shaped root found
    have arity := counted.arity_eq free (readable.resolve_left free)
    obtain ⟨built, instances⟩ := instances_of_counted sides plain found counted arity
    refine ⟨instantiate_of_bindings? plain.1 shaped root flat sides.separate_left found counted
      (Or.inr arity), _, built, isMarker_subst_plain ?_ values, instances⟩
    rw [isMarker_expandAll, otherRoot]

end

/-! Settling. -/

theorem matchHere_of_found {subject pattern : Expr} {bindings : Bindings}
    (found : subject.bindings? pattern = some bindings) :
    subject.matchHere pattern = .ok bindings := by
  rw [matchHere, found]

theorem matchHere_of_none {subject pattern : Expr} (absent : subject.bindings? pattern = none) :
    subject.matchHere pattern = Attempt.stepFault (.noMatch pattern subject) := by
  rw [matchHere, absent]

theorem settle_self (target rhs : Expr) (passes : Nat) :
    settle target (passes + 1) target rhs = .ok rhs := by
  rw [settle, if_pos rfl]

section

variable {target lhs rhs : Expr}

theorem settle_of_found {image : Expr} {bindings : Bindings} (passes : Nat)
    (found : target.bindings? lhs = some bindings) (differ : lhs ≠ target)
    (left : lhs.instantiate bindings = .ok target) (right : rhs.instantiate bindings = .ok image)
    (root : target.isMarker = false) (imageRoot : image.isMarker = false) :
    settle target (passes + 2) lhs rhs = .ok image := by
  rw [settle, if_neg differ, matchHere_of_found found]
  simp only [bind, Except.bind, left, right, build_two (Or.inr rfl) "=" root imageRoot]
  rw [if_neg fun same => differ same.1.symm, settle_self]

theorem instantiate_of_settle {image : Expr} {bindings : Bindings} {passes : Nat}
    (found : target.bindings? lhs = some bindings) (differ : lhs ≠ target)
    (settled : settle target (passes + 1) lhs rhs = .ok image) :
    ∃ ground, lhs.instantiate bindings = .ok ground := by
  rw [settle, if_neg differ, matchHere_of_found found] at settled
  obtain ⟨others, same, rest⟩ := Attempt.bind_eq_ok.mp settled
  obtain rfl := Except.ok.inj same
  obtain ⟨ground, built, _⟩ := Attempt.bind_eq_ok.mp rest
  exact ⟨ground, built⟩

theorem settle_of_none (passes : Nat) (absent : target.bindings? lhs = none)
    (differ : lhs ≠ target) :
    settle target (passes + 1) lhs rhs = Attempt.stepFault (.noMatch lhs target) := by
  rw [settle, if_neg differ, matchHere_of_none absent]
  rfl

end

theorem byEquation_equation (e lhs rhs : Expr) :
    e.byEquation (equation lhs rhs) = settle e maxGroundings lhs rhs := rfl

section

variable {e lhs rhs : Expr} {bindings : Bindings}

theorem bindings?_self (plain : e.Plain) :
    ∃ bindings, e.bindings? e = some bindings ∧ bindings.toSubst = var := by
  have same : (e.expandAll e.fixedVariables 1).subst var = e := by
    rw [plain.2.expandAll_eq, subst_var_self e plain.1]
  obtain ⟨bindings, found, agrees⟩ := bindings?_of_subst plain.1 plain.1 plain.2.flatTemplates var
    (Or.inl plain.2) same
  refine ⟨bindings, found, ?_⟩
  funext name
  unfold Bindings.toSubst
  cases known : bindings.find? name with
  | none => rfl
  | some value => exact (agrees name value known).symm

theorem instantiate_of_self (sides : Sides e rhs) (plain : e.Plain)
    (found : e.bindings? e = some bindings) : rhs.instantiate bindings = .ok rhs := by
  obtain ⟨others, foundOthers, identity⟩ := bindings?_self plain
  obtain rfl := Option.some.inj (found.symm.trans foundOthers)
  have built := (instances_of_markerFree sides plain found plain.2).1
  rwa [identity, subst_var_self rhs sides.right.1] at built

/-- A left side that is the subject already is never matched; its match would change nothing. -/
theorem byEquation_of_instances (plain : e.Plain) (found : e.bindings? lhs = some bindings)
    (left : lhs.instantiate bindings = .ok e) {image : Expr}
    (right : rhs.instantiate bindings = .ok image) (root : image.isMarker = false)
    (unchanged : lhs = e → rhs = image) : e.byEquation (equation lhs rhs) = .ok image := by
  rw [byEquation_equation]
  by_cases same : lhs = e
  · rw [same, unchanged same, maxGroundings, settle_self]
  · exact settle_of_found 6 found same left right plain.2.isMarker_eq_false root

theorem byEquation_of_found (sides : Sides lhs rhs) (plain : e.Plain)
    (found : e.bindings? lhs = some bindings)
    (readable : lhs.MarkerFree ∨ ∃ arity, bindings.arity = .ok arity) :
    ∃ image, rhs.instantiate bindings = .ok image ∧ e.byEquation (equation lhs rhs) = .ok image ∧
      AreInstances lhs rhs bindings.toSubst e image := by
  obtain ⟨left, image, right, root, instances⟩ := instances_of_bindings? sides plain found readable
  refine ⟨image, right, byEquation_of_instances plain found left right root ?_, instances⟩
  rintro rfl
  rw [instantiate_of_self sides plain found] at right
  exact Except.ok.inj right

theorem byEquation_of_none (plain : e.Plain) (absent : e.bindings? lhs = none) :
    e.byEquation (equation lhs rhs) = Attempt.stepFault (.noMatch lhs e) := by
  rw [byEquation_equation]
  refine settle_of_none 7 absent ?_
  rintro rfl
  obtain ⟨bindings, found, _⟩ := bindings?_self plain
  simp [found] at absent

theorem areInstances_of_byEquation (sides : Sides lhs rhs) (plain : e.Plain) {image : Expr}
    (stepped : e.byEquation (equation lhs rhs) = .ok image) :
    ∃ bindings, e.bindings? lhs = some bindings ∧
      AreInstances lhs rhs bindings.toSubst e image := by
  cases found : e.bindings? lhs with
  | none =>
      rw [byEquation_of_none plain found] at stepped
      exact absurd stepped (Attempt.stepFault_ne_ok _ _)
  | some bindings =>
      obtain ⟨shaped, root, _⟩ := sides.left
      have readable : lhs.MarkerFree ∨ ∃ arity, bindings.arity = .ok arity := by
        by_cases free : lhs.MarkerFree
        · exact Or.inl free
        · have variadic : lhs.HasVariadicTrain := Classical.not_not.mp
            fun absent => free (markerFree_of_not_hasVariadicTrain shaped root absent)
          have differ : lhs ≠ e := by
            rintro rfl
            exact free plain.2
          -- The first pass has expanded the left side, so the number of copies was read.
          obtain ⟨ground, built⟩ := instantiate_of_settle found differ stepped
          exact Or.inr (arity_of_instantiate_ok shaped variadic built)
      obtain ⟨other, _, same, instances⟩ := byEquation_of_found sides plain found readable
      rw [stepped] at same
      obtain rfl := Except.ok.inj same
      exact ⟨bindings, rfl, instances⟩

theorem areInstances_of_plain (lhsPlain : lhs.Plain) (rhsPlain : rhs.Plain) (plain : e.Plain)
    {image : Expr} (stepped : e.byEquation (equation lhs rhs) = .ok image) :
    ∃ bindings, e.bindings? lhs = some bindings ∧
      AreInstances lhs rhs bindings.toSubst e image := by
  cases found : e.bindings? lhs with
  | none =>
      rw [byEquation_of_none plain found] at stepped
      exact absurd stepped (Attempt.stepFault_ne_ok _ _)
  | some bindings =>
      have values := plain_toSubst plain found
      have left := instantiate_of_markerFree plain.1 lhsPlain.1 lhsPlain.2 found
      have right := instantiate_eq_subst bindings rhs rhsPlain.1 (Or.inl rhsPlain.2)
        (subst_plain rhsPlain.1 values)
      have turned := byEquation_of_instances plain found left right
        (isMarker_subst_plain rhsPlain.2.isMarker_eq_false values) (by
          rintro rfl
          obtain ⟨others, foundOthers, identity⟩ := bindings?_self lhsPlain
          obtain rfl := Option.some.inj (found.symm.trans foundOthers)
          rw [identity, subst_var_self rhs rhsPlain.1])
      obtain rfl := Except.ok.inj (turned.symm.trans stepped)
      exact ⟨bindings, rfl, Or.inl ⟨lhsPlain.2,
        subst_of_markerFree plain.1 lhsPlain.1 lhsPlain.2 found, rfl⟩⟩

end

end Stepwise.Expr
