import Stepwise.Proofs.Deduction.Step
import Stepwise.Proofs.Meaning.Law
import Stepwise.Proofs.Meaning.Line
import Stepwise.Rule.Basic

/-!
Sound rules: the two sides mean the same under every valuation, with any number of copies in their
variadic trains. Applying a sound rule to a line, at any address, gives a line that means the same.
-/

namespace Stepwise.Interpretation

open Stepwise.Expr

structure IsSound (I : Interpretation) (rule : Rule) : Prop where
  sides : Sides rule.lhs rule.rhs
  trains : rule.rhs.Formed (trainsOver ["+", "*"])
  expands : rule.lhs.MarkerFree → rule.rhs.MarkerFree
  premise : rule.relation = .implication → rule.lhs.MarkerFree
  same : ∀ count, 1 ≤ count → ∀ ν,
    I.meaning ν (rule.rhs.expandAll rule.lhs.fixedVariables count) =
      I.meaning ν (rule.lhs.expandAll rule.lhs.fixedVariables count)

theorem isLine_var (name : String) : IsLine (var name) := by
  simp [IsLine, var, formed_node, countFault?, lineNodes, trainsOver]

theorem isLine_const (symbol : String) : IsLine (const symbol) := by
  simp [IsLine, const, formed_node, countFault?, lineNodes, trainsOver]

theorem isLine_toSubst {e pattern : Expr} (isLine : IsLine e) {bindings : Bindings}
    (found : e.bindings? pattern = some bindings) (name : String) :
    IsLine (bindings.toSubst name) := by
  have values := bindings?_values (fun _ _ _ line _ member => Formed.child line member)
    (fun count => isLine_const _) isLine found
  exact values.toSubst (isLine_var name)

theorem isLine_of_trains {e : Expr} (formed : e.Formed (trainsOver ["+", "*"]))
    (free : e.MarkerFree) : IsLine e := by
  refine formed.of_markerFree ?_ free
  intro kind symbol notMarker allowed
  simp [lineNodes, notMarker, allowed]

section

variable {I : Interpretation} {rule : Rule}

theorem IsSound.isLaw (sound : I.IsSound rule) : I.toModel.IsLaw rule.lhs rule.rhs where
  shaped := sound.sides.shaped
  variadic := by
    intro variadic
    refine ⟨?_, sound.sides.flat, sound.sides.separate⟩
    obtain ⟨shaped, root, _⟩ := sound.sides.left
    refine Classical.byContradiction fun absent => ?_
    have free := markerFree_of_not_hasVariadicTrain shaped root absent
    have both : (equation rule.lhs rule.rhs).MarkerFree := by
      simp [equation, markerFree_node, free, sound.expands free]
    exact both.not_hasVariadicTrain variadic
  holds := by
    intro count positive ν
    rw [← meaning_eq_value, ← meaning_eq_value, sound.same count positive]

theorem IsSound.isLine_of_instances (sound : I.IsSound rule) {σ : String → Expr}
    (values : ∀ name, IsLine (σ name)) {left right : Expr}
    (instances : AreInstances rule.lhs rule.rhs σ left right) : IsLine right := by
  refine sound.isLaw.formed_of_instances (fun _ => rfl) ?_ sound.trains values instances
  intro kind symbol notMarker allowed
  simp [lineNodes, notMarker, allowed]

theorem IsSound.infer (sound : I.IsSound rule) (isImplication : rule.relation = .implication)
    {e image : Expr} (isLine : IsLine e)
    (stepped : e.infer (implication rule.lhs rule.rhs) = .ok image) :
    IsLine image ∧ ∀ ν, I.meaning ν image = I.meaning ν e := by
  have free := sound.premise isImplication
  obtain ⟨bindings, found, instances⟩ := areInstances_of_infer isLine.plain
    ⟨sound.sides.left.1, free⟩ ⟨sound.sides.right.1, sound.expands free⟩ stepped
  refine ⟨sound.isLine_of_instances (isLine_toSubst isLine found) instances, ?_⟩
  intro ν
  rw [meaning_eq_value, meaning_eq_value]
  refine sound.isLaw.value_of_instances (fun name => ?_) instances ν
  exact (plain_toSubst isLine.plain found name).2.isMarker_eq_false

theorem IsSound.byEquationAt (sound : I.IsSound rule) (usual : I.Usual) {e result : Expr}
    {address : Address} (isLine : IsLine e)
    (stepped : e.byEquationAt (equation rule.lhs rule.rhs) address = .ok result) :
    IsLine result ∧ ∀ ν, I.meaning ν result = I.meaning ν e := by
  constructor
  · obtain ⟨target, resolved, rest⟩ := Attempt.bind_eq_ok.mp stepped
    obtain ⟨image, turned, replaced⟩ := Attempt.bind_eq_ok.mp rest
    have targetLine : IsLine target := Formed.resolve (fun _ => rfl) isLine resolved
    obtain ⟨bindings, found, instances⟩ :=
      areInstances_of_byEquation sound.sides targetLine.plain turned
    have imageLine := sound.isLine_of_instances (isLine_toSubst targetLine found) instances
    exact Formed.replace imageLine isLine ⟨target, resolved⟩ replaced
  · intro ν
    rw [meaning_eq_value, meaning_eq_value]
    refine (sound.isLaw.byEquationAt isLine.plain ?_ stepped).2 ν
    intro index train _ reached isTrain
    have trainLine : IsLine train := Formed.nodeAt isLine reached
    exact usual.isRing.associates (isLine_train trainLine isTrain)

theorem IsSound.applyAt (sound : I.IsSound rule) (usual : I.Usual) {e result : Expr}
    {address : Address} (isLine : IsLine e) (applied : rule.applyAt e address = .ok result) :
    IsLine result ∧ ∀ ν, I.meaning ν result = I.meaning ν e := by
  unfold Rule.applyAt Rule.statement at applied
  split at applied
  · rename_i isEquation
    exact sound.byEquationAt usual isLine applied
  · rename_i isImplication
    split at applied
    · exact sound.infer isImplication isLine applied
    · exact absurd applied (Attempt.stepFault_ne_ok _ _)

end

end Stepwise.Interpretation
