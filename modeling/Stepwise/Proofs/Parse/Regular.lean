import Stepwise.Proofs.Deduction.Regular
import Stepwise.Proofs.Parse.Formed

/-!
What the infix notation is read as is tidy.
-/

namespace Stepwise.Parse

open Stepwise.Expr

theorem regular_variadicTrain {ops : List String} {symbol : String} {template : Expr}
    (known : symbol ∈ ops) (regular : template.Regular ops several)
    (operand : template.isMarker = false) :
    (variadicTrain symbol template).Regular ops several := by
  have marker : (node .variadic ellipsis [template]).Regular ops several :=
    regular_node rfl (regularNodes_of_ne (by decide) (by decide) _) (by simp)
      (by simpa using ⟨regular, operand⟩)
  refine (regular_of_build (regularNodes_train.mpr known) ?_ ?_).value
    (build_of_shape rfl symbol : build .train symbol [node .variadic ellipsis [template]] = _)
  · simp [isGroupOf, isVariadicTrain, template?]
  · simpa using marker

theorem operatorKind_train {ctx : Context} {symbol : String} {count : Nat}
    (isTrain : operatorKind ctx symbol count = .train) : 2 ≤ count ∧ symbol ∈ ctx.assocOps := by
  unfold operatorKind at isTrain
  split at isTrain
  · simp at isTrain
  · split at isTrain
    · simp at isTrain
    · split at isTrain
      · simp at isTrain
      · split at isTrain
        · assumption
        · simp at isTrain

theorem readable_regular (ctx : Context) :
    Readable ctx fun e => e.Regular ctx.assocOps several ∧ e.isMarker = false where
  leaf token isWord := by
    unfold leaf
    split
    · exact ⟨regular_const token, rfl⟩
    · exact ⟨regular_var (isWord_ne_ellipsis isWord), rfl⟩
  unary token inner _ regular :=
    ⟨regular_node rfl (regularNodes_of_ne (by decide) (by decide) _) (by simp)
      (by simpa using regular), rfl⟩
  variadicTrain symbol template known regular :=
    ⟨regular_variadicTrain known regular.1 regular.2, rfl⟩
  infixNode symbol left right isInfix leftRegular rightRegular := by
    have both : ∀ side ∈ [left, right],
        side.Regular ctx.assocOps several ∧ side.isMarker = false := by
      simp [leftRegular, rightRegular]
    unfold infixNode
    split
    · exact ⟨regular_node rfl (regularNodes_of_ne (by decide) (by decide) _) (by simp) both, rfl⟩
    · split
      · exact ⟨regular_node rfl (regularNodes_of_ne (by decide) (by decide) _) (fun _ => rfl) both,
          rfl⟩
      · rename_i noStatement noBinary
        have known : symbol ∈ ctx.assocOps := by
          simpa [isInfixOperator, noStatement, noBinary] using isInfix
        exact ⟨regular_node rfl (regularNodes_train.mpr known) (fun _ => rfl) both, rfl⟩
  application token arguments e isWord each built := by
    have made : Parse.application ctx token arguments = .ok _ :=
      application_eq_ok (isWord_ne_ellipsis isWord) fun argument member => (each argument member).2
    obtain rfl := Except.ok.inj (made.symm.trans built)
    have cases := operatorKind_cases ctx token arguments.length
    refine ⟨regular_node (countFault?_operatorKind ctx token _) ?_ ?_ each, ?_⟩
    · by_cases isTrain : operatorKind ctx token arguments.length = .train
      · rw [isTrain]
        exact regularNodes_train.mpr (operatorKind_train isTrain).2
      · refine regularNodes_of_ne isTrain (fun isVar => ?_) token
        simp [isVar] at cases
    · rintro (isBinary | isTrain)
      · have two : arguments.length = 2 := by simpa [isBinary] using cases
        simp [several, two]
      · simpa [several] using (operatorKind_train isTrain).1
    · exact decide_eq_false (operatorKind_ne_variadic ctx token arguments.length)

theorem infixed_tidy {ctx : Context} (trains : ctx.assocOps ⊆ ctx.binaryOps) {text : String}
    {e : Expr} (parsed : infixed ctx text = .ok e) : e.Tidy ctx.assocOps := by
  have regular : e.Regular ctx.assocOps several ∧ e.isMarker = false := by
    refine (infixed_ends (readable_regular ctx).reader ?_ ?_ text).value parsed
    · intro e ⟨regular, operand⟩
      exact ⟨regular.flatten,
        ((isPass_flattenNode ctx.assocOps).bottomUp regular.shaped).2.trans operand⟩
    · intro e ⟨regular, operand⟩
      exact ⟨regular.shorten ctx.binaryOps,
        ((isPass_shortenNode ctx.binaryOps).bottomUp regular.shaped).2.trans operand⟩
  refine ⟨regular.1, unpaired_of_short trains regular.1.formed ?_⟩
  unfold infixed at parsed
  split at parsed
  · simp at parsed
  · exact Except.ok.inj parsed ▸ shorten_short _ _

end Stepwise.Parse
