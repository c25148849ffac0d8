import Stepwise.Proofs.Deduction.Settling
import Stepwise.Proofs.Expr.Grafting
import Stepwise.Proofs.Rule.Application

/-!
How the application of a rule can fail.
-/

namespace Stepwise.Rule

open Stepwise.Expr

variable {rule : Rule} {e : Expr} {address : Address}

theorem operands_of_statement (ruleShaped : rule.statement.WellShaped) :
    rule.lhs.IsOperand ∧ rule.rhs.IsOperand :=
  ((rule.statement_wellShaped_iff "=").mp ruleShaped).sides

theorem applyAt_ends {Q : Fault → Prop} (steps : ∀ cause, Q (.step cause)) (shaped : e.WellShaped)
    (settles : ∀ target, e.resolve address = .ok target →
      (settle target maxGroundings rule.lhs rule.rhs).Ends IsOperand Q)
    (infers : e.resolve address = .ok e →
      (e.infer (implication rule.lhs rule.rhs)).Ends IsOperand Q) :
    (rule.applyAt e address).Ends WellShaped Q := by
  obtain ⟨path, pair⟩ := address
  cases isEquation : rule.relation with
  | equation =>
      rw [applyAt_equation isEquation]
      have selected := (resolve_ends shaped ⟨path, pair⟩).imp_fault (S := Q) (by
        rintro fault ⟨cause, rfl⟩
        exact steps cause)
      refine Attempt.Ends.bind selected fun target resolved _ => ?_
      refine Attempt.Ends.bind (settles target resolved) fun image _ operand => ?_
      obtain ⟨result, replaced, _⟩ := exists_replace shaped operand resolved
      rw [replaced]
      exact shaped.replace operand.1 replaced
  | implication =>
      rw [applyAt_implication isEquation]
      split
      · rename_i atRoot
        simp only [Address.isRoot, Bool.and_eq_true, List.isEmpty_iff, Option.isNone_iff_eq_none]
          at atRoot
        obtain ⟨rfl, rfl⟩ := atRoot
        exact (infers rfl).imp (fun _ _ operand => operand.1) fun _ known => known
      · exact steps _

theorem applyAt_ends_of_plain (ruleShaped : rule.statement.WellShaped)
    (absent : ¬rule.statement.HasVariadicTrain) (plain : e.Plain) :
    (rule.applyAt e address).Ends WellShaped Fault.IsStep := by
  obtain ⟨left, right⟩ := operands_of_statement ruleShaped
  have free := plain_of_not_hasVariadicTrain ruleShaped absent
  have steps (cause : StepFault) : (Fault.step cause).IsStep := ⟨cause, rfl⟩
  refine applyAt_ends steps plain.1 ?_ ?_
  · intro target resolved
    have targetPlain : target.Plain := by
      rw [← formed_iff_plain] at plain ⊢
      exact Formed.resolve (fun _ => rfl) plain resolved
    exact settle_ends_of_closes targetPlain.1 left right 6 (Or.inl free.1.2) steps
      (fun _ _ => Or.inl ⟨free.1.2, free.2.2⟩)
      fun _ found captured => absurd captured (not_hasMarker_of_plain targetPlain found)
  · intro _
    exact infer_ends plain.1 left right steps (fun _ _ => Or.inl ⟨free.1.2, free.2.2⟩)
      fun _ found captured => absurd captured (not_hasMarker_of_plain plain found)

/-- At the target, a variable of the left side is bound to a variadic marker. -/
def CapturesMarker (rule : Rule) (target : Expr) : Prop :=
  ∃ bindings, target.bindings? rule.lhs = some bindings ∧ bindings.HasMarker

/-- The rule has no copies to count at the target, or they are counted by numerals that can be read
back and no variable takes the name of the count. -/
def CountsAt (rule : Rule) (target : Expr) : Prop :=
  rule.lhs.MarkerFree ∧ rule.rhs.MarkerFree ∨
    (rule.lhs.Unnamed ∧ rule.rhs.Unnamed) ∧ target.Unnamed ∧ target.Countable

theorem CountsAt.reads {target : Expr} (counts : rule.CountsAt target) (shaped : target.WellShaped)
    (left : rule.lhs.IsOperand) {bindings : Bindings}
    (found : target.bindings? rule.lhs = some bindings) :
    Reads bindings rule.lhs rule.rhs := by
  refine counts.imp_right fun ⟨⟨named, _⟩, _, countable⟩ => ?_
  rw [Unnamed, ← mem_variableNames] at named
  exact readsArity_of_found shaped left named (Or.inr countable) found

/-- Applying a rule fails as a step does, or a marker would stray, or copies are miscounted. They
are not where they are counted by numerals. Then a marker does not stray where the target has no
markers, nor where the left side captures none and closes. -/
theorem applyAt_failures (rule : Rule) (ruleShaped : rule.statement.WellShaped) (e : Expr)
    (shaped : e.WellShaped) (address : Address) :
    (rule.applyAt e address).Ends WellShaped
        (fun fault => fault.IsStepOrStray ∨ fault.IsMiscount) ∧
      ((∀ target, e.resolve address = .ok target → rule.CountsAt target) →
        (rule.applyAt e address).Ends WellShaped Fault.IsStepOrStray ∧
          ((∀ target, e.resolve address = .ok target →
              target.MarkerFree ∨ rule.lhs.Closes ∧ ¬rule.CapturesMarker target) →
            (rule.applyAt e address).Ends WellShaped Fault.IsStep)) := by
  obtain ⟨left, right⟩ := operands_of_statement ruleShaped
  have below {target : Expr} (resolved : e.resolve address = .ok target) : target.WellShaped :=
    shaped.resolve resolved
  refine ⟨?_, fun counts => ⟨?_, fun uncaptured => ?_⟩⟩
  · refine applyAt_ends (fun cause => Or.inl (Or.inl ⟨cause, rfl⟩)) shaped ?_ ?_
    · exact fun target resolved => settle_ends (below resolved) maxGroundings left right
    · intro _
      exact infer_ends shaped left right (fun cause => Or.inl (Or.inl ⟨cause, rfl⟩))
        (fun _ _ => Or.inr fun _ miscounts => Or.inr miscounts.isMiscount)
        fun _ _ _ => Or.inl (Or.inr rfl)
  · have steps (cause : StepFault) : (Fault.step cause).IsStepOrStray := Or.inl ⟨cause, rfl⟩
    refine applyAt_ends steps shaped ?_ ?_
    · intro target resolved
      rcases counts target resolved with free | ⟨⟨leftNamed, rightNamed⟩, named, countable⟩
      · exact settle_ends_of_closes (below resolved) left right 6 (Or.inl free.1) steps
          (fun _ _ => Or.inl free) fun _ _ _ => Or.inr rfl
      · exact settle_ends_of_counted (below resolved) named countable maxGroundings left right
          leftNamed rightNamed
    · intro atRoot
      exact infer_ends shaped left right steps
        (fun _ found => ((counts e atRoot).reads shaped left found).counts) fun _ _ _ => Or.inr rfl
  · have kept (target : Expr) (resolved : e.resolve address = .ok target) (bindings : Bindings)
        (found : target.bindings? rule.lhs = some bindings) : ¬bindings.HasMarker := by
      rcases uncaptured target resolved with free | ⟨_, none⟩
      · exact not_hasMarker_of_plain ⟨below resolved, free⟩ found
      · exact fun captured => none ⟨bindings, found, captured⟩
    refine applyAt_ends (fun cause => ⟨cause, rfl⟩) shaped ?_ ?_
    · intro target resolved
      exact settle_ends_of_uncaptured (below resolved) left right 5
        ((uncaptured target resolved).imp_right And.left)
        (fun _ found => (counts target resolved).reads (below resolved) left found)
        (kept target resolved)
    · intro atRoot
      exact infer_ends shaped left right (fun cause => ⟨cause, rfl⟩)
        (fun _ found => ((counts e atRoot).reads shaped left found).counts)
        fun bindings found captured => absurd captured (kept e atRoot bindings found)

def distribution : Rule :=
  ⟨"distribute", "Distribute multiplication", .equation,
    binary "*" (var "X") (variadicTrain "+" (var "A")),
    variadicTrain "+" (binary "*" (var "X") (var "A"))⟩

theorem applyAt_failures_sum :
    (distribution.applyAt
      (equation (binary "*" (var "x") (train "+" [var "a", var "b", var "c"])) (const "2"))
      ⟨[0], none⟩).Ends WellShaped Fault.IsStep := by
  have there : (equation (binary "*" (var "x") (train "+" [var "a", var "b", var "c"]))
      (const "2")).resolve ⟨[0], none⟩ =
        .ok (binary "*" (var "x") (train "+" [var "a", var "b", var "c"])) := rfl
  refine ((applyAt_failures distribution (by decide) _ (by decide) _).2 ?_).2 ?_
  · intro target resolved
    obtain rfl := Except.ok.inj (there.symm.trans resolved)
    exact Or.inr (by decide)
  · intro target resolved
    obtain rfl := Except.ok.inj (there.symm.trans resolved)
    exact Or.inl (by decide)

def misnamed : Rule :=
  ⟨"misnamed", "Misnamed", .equation, call "f" [var ellipsis], variadicTrain "+" (var "A")⟩

/-- Over a sum that is variadic itself, the marker of the sum is captured as if it were a term. A
variable with the name of the count makes a count of whatever it is bound to. -/
theorem applyAt_strays :
    (distribution.statement.WellShaped ∧
      (equation (binary "*" (var "x") (variadicTrain "+" (var "A"))) (const "2")).WellShaped ∧
      distribution.applyAt
        (equation (binary "*" (var "x") (variadicTrain "+" (var "A"))) (const "2")) ⟨[0], none⟩ =
          .error (.shape .strayMarker) ∧ ¬Fault.IsStep (.shape .strayMarker)) ∧
    misnamed.statement.WellShaped ∧ (call "f" [var "x"]).WellShaped ∧
      misnamed.applyAt (call "f" [var "x"]) .root = .error (.literal (.notAnInteger "x")) ∧
      ¬Fault.IsStep (.literal (.notAnInteger "x")) := by
  have notStep {fault : Fault} (other : ∀ cause, fault ≠ .step cause) : ¬fault.IsStep := by
    rintro ⟨cause, same⟩
    exact other cause same
  exact ⟨⟨by decide, by decide, by decide +kernel, notStep (by simp)⟩, by decide, by decide,
    by decide +kernel, notStep (by simp)⟩

end Stepwise.Rule
