import Stepwise.Proofs.NormalForm.Shape
import Stepwise.Proofs.Parse.Readers

/-!
What the infix notation is read as: well shaped trees that are no markers, and formed ones in which
only associative operators have trains.
-/

namespace Stepwise.Parse

open Stepwise.Expr

section

variable (ctx : Context)

theorem leaf_formed (symbol : String) : (leaf ctx symbol).Formed (trainsOver ctx.assocOps) := by
  unfold leaf
  split
  all_goals simp [const, var, formed_node, countFault?, trainsOver]

theorem variadicTrain_formed {symbol : String} {template : Expr}
    (formed : template.Formed (trainsOver ctx.assocOps)) (known : symbol ∈ ctx.assocOps) :
    (variadicTrain symbol template).Formed (trainsOver ctx.assocOps) := by
  simp [variadicTrain, train, formed_node, countFault?, trainsOver, formed, known]

theorem infixNode_formed {symbol : String} {left right : Expr}
    (isInfix : isInfixOperator ctx symbol = true)
    (leftFormed : left.Formed (trainsOver ctx.assocOps))
    (rightFormed : right.Formed (trainsOver ctx.assocOps)) :
    (infixNode ctx symbol left right).Formed (trainsOver ctx.assocOps) := by
  unfold infixNode
  split
  · simp [formed_node, countFault?, trainsOver, leftFormed, rightFormed]
  · split
    · simp [binary, formed_node, countFault?, trainsOver, leftFormed, rightFormed]
    · rename_i noStatement noBinary
      have known : symbol ∈ ctx.assocOps := by
        simpa [isInfixOperator, noStatement, noBinary] using isInfix
      simp [train, formed_node, countFault?, trainsOver, leftFormed, rightFormed, known]

theorem application_formed {symbol : String} {operands : List Expr} {applied : Expr}
    (each : ∀ operand ∈ operands, operand.Formed (trainsOver ctx.assocOps))
    (built : application ctx symbol operands = .ok applied) :
    applied.Formed (trainsOver ctx.assocOps) := by
  unfold application at built
  split at built
  · split at built
    · exact formed_of_build built rfl each
    · simp at built
  · split at built
    · split at built
      · split at built
        · rename_i known
          exact formed_of_build built (by simp [trainsOver, known]) each
        · simp at built
      · simp at built
    · refine formed_of_build built ?_ each
      unfold operatorKind
      split
      · rfl
      · split
        · rfl
        · split
          · rfl
          · split
            · rename_i known
              simp [trainsOver, known.2]
            · rfl

end

theorem readable_formed (ctx : Context) :
    Readable ctx (Formed (trainsOver ctx.assocOps)) where
  leaf token _ := leaf_formed ctx token
  unary token inner _ formed := by
    simp [unary, formed_node, countFault?, trainsOver, formed]
  variadicTrain _ _ known formed := variadicTrain_formed ctx formed known
  infixNode _ _ _ isInfix leftFormed rightFormed :=
    infixNode_formed ctx isInfix leftFormed rightFormed
  application _ _ _ _ each built := application_formed ctx each built

theorem infixed_formed (ctx : Context) {text : String} {e : Expr}
    (parsed : infixed ctx text = .ok e) : e.Formed (trainsOver ctx.assocOps) := by
  have formation := isFormation_formed (trainsOver ctx.assocOps)
  refine (infixed_ends (readable_formed ctx).reader ?_ ?_ text).value parsed
  · refine fun written formed => formed.bottomUp fun node here => formation.flattenNode ?_ here
    intro symbol known
    simp [trainsOver, known]
  · exact fun flat formed =>
      formed.bottomUp fun node here => formation.shortenNode (fun _ _ _ => rfl) here

theorem isWord_ne_ellipsis {token : String} (isWord : Token.isWord token = true) :
    token ≠ ellipsis := by
  rintro rfl
  exact absurd isWord (by decide +kernel)

theorem operatorKind_ne_variadic (ctx : Context) (symbol : String) (count : Nat) :
    operatorKind ctx symbol count ≠ .variadic := by
  rcases operatorKind_cases ctx symbol count with
    ⟨same, _⟩ | ⟨same | same, _⟩ | ⟨same, _⟩ | same
  all_goals simp [same]

theorem readable_operand (ctx : Context) : Readable ctx IsOperand where
  leaf token _ := by
    unfold leaf
    split
    all_goals exact isFormation_operand.build (by decide) rfl rfl (by simp)
  unary token inner _ operand :=
    isFormation_operand.build (by decide) rfl rfl (by simpa using operand)
  variadicTrain symbol template _ operand := by
    have marker : (node .variadic ellipsis [template]).WellShaped := by
      simp [wellShaped_node, shapeFault?, countFault?, operand.1, operand.2]
    exact ⟨by simp [variadicTrain, train, wellShaped_node, shapeFault?, countFault?, marker], rfl⟩
  infixNode symbol left right _ leftOperand rightOperand := by
    have both : ∀ side ∈ [left, right], side.IsOperand := by simp [leftOperand, rightOperand]
    unfold infixNode
    split
    · exact isFormation_operand.build (by decide) rfl rfl both
    · split
      all_goals exact isFormation_operand.build (by decide) rfl rfl both
  application token arguments e isWord each built := by
    have made : Parse.application ctx token arguments = .ok _ :=
      application_eq_ok (isWord_ne_ellipsis isWord) fun argument member => (each argument member).2
    obtain rfl := Except.ok.inj (made.symm.trans built)
    exact isFormation_operand.build (operatorKind_ne_variadic ctx token _)
      (countFault?_operatorKind ctx token _) rfl each

theorem reader_operand (ctx : Context) : Reader ctx IsOperand Fault.IsParse where
  toReadable := readable_operand ctx
  parse cause := ⟨cause, rfl⟩
  application_fault token arguments fault isWord each failed := by
    rw [application_eq_ok (isWord_ne_ellipsis isWord) fun argument member =>
      (each argument member).2] at failed
    simp at failed

theorem infixed_operand (ctx : Context) (text : String) :
    (infixed ctx text).Ends IsOperand Fault.IsParse := by
  refine infixed_ends (reader_operand ctx) ?_ ?_ text
  · intro e operand
    obtain ⟨shaped, marker⟩ := (isPass_flattenNode ctx.assocOps).bottomUp operand.1
    exact ⟨shaped, marker.trans operand.2⟩
  · intro e operand
    obtain ⟨shaped, marker⟩ := (isPass_shortenNode ctx.binaryOps).bottomUp operand.1
    exact ⟨shaped, marker.trans operand.2⟩

end Stepwise.Parse
