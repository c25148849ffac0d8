import Stepwise.Proofs.Meaning.Interpretation
import Stepwise.Proofs.Meaning.Ring

/-!
The lines of a derivation over the rationals: no markers, and trains only of sums and products. The
normal form of a line is one, and means the same.
-/

namespace Stepwise.Interpretation

open Stepwise.Expr

variable {I : Interpretation} {ν : String → ℚ}

theorem Usual.isRing (usual : I.Usual) : I.toModel.IsRing :=
  ⟨usual.add, usual.mul, usual.sub, usual.neg⟩

def lineNodes (kind : Kind) (symbol : String) : Bool :=
  kind ≠ .variadic && trainsOver ["+", "*"] kind symbol

def IsLine (e : Expr) : Prop := e.Formed lineNodes

theorem IsLine.plain {e : Expr} (isLine : IsLine e) : e.Plain :=
  Formed.plain (fun _ => rfl) isLine

theorem isLine_train {e : Expr} (isLine : IsLine e) (isTrain : e.isTrain = true) :
    e.symbol ∈ ["+", "*"] := by
  obtain ⟨kind, symbol, children⟩ := e
  have kindEq : kind = .train := of_decide_eq_true isTrain
  subst kindEq
  have allowed := ((formed_node _ _ _).mp isLine).1.2
  simpa [lineNodes, trainsOver] using allowed

def KeepsLines (I : Interpretation) (ν : String → ℚ) (step : Expr → Expr) : Prop :=
  ∀ e, IsLine e → IsLine (step e) ∧ I.meaning ν (step e) = I.meaning ν e

theorem isFormation_line : IsFormation lineNodes IsLine := isFormation_formed lineNodes

theorem KeepsLines.andThen {first second : Expr → Expr} (keepsFirst : KeepsLines I ν first)
    (keepsSecond : KeepsLines I ν second) : KeepsLines I ν (fun e => second (first e)) := by
  intro e isLine
  obtain ⟨middle, sameFirst⟩ := keepsFirst e isLine
  obtain ⟨last, sameSecond⟩ := keepsSecond _ middle
  exact ⟨last, sameSecond.trans sameFirst⟩

theorem keepsLines_bottomUp {step : Expr → Expr} (pass : IsPass step)
    (lines : ∀ e, IsLine e → IsLine (step e))
    (same : ∀ e : Expr, e.IsOperand → I.toModel.value ν (step e) = I.toModel.value ν e) :
    KeepsLines I ν (bottomUp step) := by
  intro e isLine
  refine ⟨Formed.bottomUp lines isLine, ?_⟩
  rw [meaning_eq_value, meaning_eq_value]
  exact Model.value_bottomUp pass ν same isLine.plain.1

theorem keepsLines_normalize (usual : I.Usual) (parameters : List String) :
    KeepsLines I ν (normalize (Context.arithmetic parameters)) := by
  have negated : KeepsLines I ν (subToNegative .usual) :=
    keepsLines_bottomUp (isPass_subToNegativeNode _)
      (fun _ => isFormation_line.subToNegativeNode rfl rfl)
      fun e _ => Model.value_subToNegativeNode usual.isRing ν e
  have flattened : KeepsLines I ν (flatten ["+", "*"]) :=
    keepsLines_bottomUp (isPass_flattenNode _)
      (fun _ => isFormation_line.flattenNode (by simp [lineNodes, trainsOver]))
      fun _ => I.toModel.value_flattenNode ν fun _ => usual.isRing.associates
  have shortened : KeepsLines I ν (shorten ["+", "-", "*", "/"]) :=
    keepsLines_bottomUp (isPass_shortenNode _)
      (fun _ => isFormation_line.shortenNode fun _ _ _ => rfl)
      fun e _ => I.toModel.value_shortenNode ν _ e
  have unwrapped : KeepsLines I ν unwrap :=
    keepsLines_bottomUp isPass_unwrapNode (fun _ => isFormation_line.unwrapNode)
      fun e _ => I.toModel.value_unwrapNode ν e
  have restored : KeepsLines I ν (negativeToSub .usual) :=
    keepsLines_bottomUp (isPass_negativeToSubNode _)
      (fun _ => isFormation_line.negativeToSubNode rfl)
      fun e _ => Model.value_negativeToSubNode usual.isRing ν e
  exact (((negated.andThen flattened).andThen shortened).andThen unwrapped).andThen restored

end Stepwise.Interpretation
