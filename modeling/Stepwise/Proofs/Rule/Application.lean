import Stepwise.Proofs.Deduction.Shaped
import Stepwise.Proofs.Deduction.Step
import Stepwise.Proofs.Expr.Grafting
import Stepwise.Rule.Basic

/-!
Applying rules: a rule keeps trees well shaped, and the addresses at which it is tried are all those
at which it can be applied, if it has no variadic trains.
-/

namespace Stepwise.Rule

open Stepwise.Expr

variable {rule : Rule} {e result : Expr} {address : Address}

theorem applyAt_equation (isEquation : rule.relation = .equation) (e : Expr) (address : Address) :
    rule.applyAt e address = e.byEquationAt (equation rule.lhs rule.rhs) address := by
  simp only [applyAt, statement, isEquation]

theorem applyAt_implication (isImplication : rule.relation = .implication) (e : Expr)
    (address : Address) :
    rule.applyAt e address =
      if address.isRoot then e.infer (implication rule.lhs rule.rhs)
      else Attempt.stepFault (.awayFromRoot rule.id) := by
  simp only [applyAt, statement, isImplication]

theorem statement_eq (rule : Rule) :
    ∃ symbol, rule.statement = node .statement symbol [rule.lhs, rule.rhs] := by
  cases isEquation : rule.relation with
  | equation => exact ⟨"=", by simp only [statement, isEquation, equation]⟩
  | implication => exact ⟨"=>", by simp only [statement, isEquation, implication]⟩

theorem statement_wellShaped_iff (rule : Rule) (symbol : String) :
    rule.statement.WellShaped ↔ (node .statement symbol [rule.lhs, rule.rhs]).WellShaped := by
  obtain ⟨other, same⟩ := rule.statement_eq
  rw [same, statement_wellShaped, statement_wellShaped]

theorem wellShaped_of_applyAt (ruleShaped : rule.statement.WellShaped) (shaped : e.WellShaped)
    (applied : rule.applyAt e address = .ok result) : result.WellShaped := by
  cases isEquation : rule.relation with
  | equation =>
      rw [applyAt_equation isEquation] at applied
      exact wellShaped_of_byEquationAt shaped ((rule.statement_wellShaped_iff _).mp ruleShaped)
        applied
  | implication =>
      rw [applyAt_implication isEquation] at applied
      split at applied
      · exact wellShaped_of_infer shaped ((rule.statement_wellShaped_iff _).mp ruleShaped) applied
      · exact absurd applied (Attempt.stepFault_ne_ok _ _)

theorem plain_of_not_hasVariadicTrain (ruleShaped : rule.statement.WellShaped)
    (absent : ¬rule.statement.HasVariadicTrain) : rule.lhs.Plain ∧ rule.rhs.Plain := by
  obtain ⟨symbol, same⟩ := rule.statement_eq
  rw [same] at ruleShaped absent
  have both : (node .statement symbol [rule.lhs, rule.rhs]).Plain :=
    ⟨ruleShaped, markerFree_of_not_hasVariadicTrain ruleShaped rfl absent⟩
  exact ⟨both.child (by simp), both.child (by simp)⟩

theorem plain_of_applyAt (ruleShaped : rule.statement.WellShaped)
    (absent : ¬rule.statement.HasVariadicTrain) (plain : e.Plain)
    (applied : rule.applyAt e address = .ok result) : result.Plain := by
  obtain ⟨lhsPlain, rhsPlain⟩ := plain_of_not_hasVariadicTrain ruleShaped absent
  have instancePlain {target image : Expr} {σ : String → Expr} (values : ∀ name, (σ name).Plain)
      (instances : AreInstances rule.lhs rule.rhs σ target image) : image.Plain := by
    rcases instances with ⟨_, _, rfl⟩ | ⟨count, _, _, rfl⟩
    · exact rhsPlain.subst values
    · rw [rhsPlain.2.expandAll_eq]
      exact rhsPlain.subst values
  cases isEquation : rule.relation with
  | equation =>
      rw [applyAt_equation isEquation] at applied
      obtain ⟨target, resolved, rest⟩ := Attempt.bind_eq_ok.mp applied
      obtain ⟨image, turned, replaced⟩ := Attempt.bind_eq_ok.mp rest
      have formed := (formed_iff_plain e).mpr plain
      have targetPlain := (formed_iff_plain target).mp (formed.resolve (fun _ => rfl) resolved)
      obtain ⟨bindings, found, instances⟩ :=
        areInstances_of_plain lhsPlain rhsPlain targetPlain turned
      have imagePlain := instancePlain (plain_toSubst targetPlain found) instances
      rw [← formed_iff_plain] at imagePlain ⊢
      exact imagePlain.replace formed ⟨target, resolved⟩ replaced
  | implication =>
      rw [applyAt_implication isEquation] at applied
      split at applied
      · obtain ⟨bindings, found, instances⟩ :=
          areInstances_of_infer plain lhsPlain rhsPlain applied
        exact instancePlain (plain_toSubst plain found) instances
      · exact absurd applied (Attempt.stepFault_ne_ok _ _)

theorem bindings?_of_byEquation {lhs rhs image : Expr} (plain : lhs.Plain)
    (stepped : e.byEquation (equation lhs rhs) = .ok image) :
    ∃ bindings, e.bindings? lhs = some bindings := by
  rw [byEquation_equation, maxGroundings, settle] at stepped
  split at stepped
  · rename_i same
    subst same
    obtain ⟨bindings, found, _⟩ := bindings?_self plain
    exact ⟨bindings, found⟩
  · obtain ⟨bindings, matched, _⟩ := Attempt.bind_eq_ok.mp stepped
    exact ⟨bindings, matchHere_eq_ok_iff.mp matched⟩

theorem mem_candidates_of_applyAt (ruleShaped : rule.statement.WellShaped)
    (absent : ¬rule.statement.HasVariadicTrain) (shaped : e.WellShaped)
    (applied : rule.applyAt e address = .ok result) : address ∈ rule.candidates e := by
  cases isEquation : rule.relation with
  | equation =>
      rw [applyAt_equation isEquation] at applied
      obtain ⟨target, resolved, rest⟩ := Attempt.bind_eq_ok.mp applied
      obtain ⟨image, turned, _⟩ := Attempt.bind_eq_ok.mp rest
      obtain ⟨bindings, found⟩ :=
        bindings?_of_byEquation (plain_of_not_hasVariadicTrain ruleShaped absent).1 turned
      have listed : (address, bindings) ∈ e.patternMatches rule.lhs :=
        (mem_patternMatches shaped _ _ _).mpr (matchAt_eq_ok_iff.mpr ⟨target, resolved, found⟩)
      simp only [candidates, isEquation]
      exact List.mem_map_of_mem listed
  | implication =>
      rw [applyAt_implication isEquation] at applied
      split at applied
      · rename_i atRoot
        obtain ⟨path, pair⟩ := address
        simp only [Address.isRoot, Bool.and_eq_true, List.isEmpty_iff, Option.isNone_iff_eq_none]
          at atRoot
        obtain ⟨rfl, rfl⟩ := atRoot
        simp only [candidates, isEquation]
        exact List.mem_singleton_self _
      · exact absurd applied (Attempt.stepFault_ne_ok _ _)

end Stepwise.Rule
