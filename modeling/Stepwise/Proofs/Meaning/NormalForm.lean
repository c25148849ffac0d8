import Stepwise.Proofs.Meaning.Model
import Stepwise.Proofs.NormalForm.Simplify

/-!
The passes of the normal form and the values of expressions. A pass that keeps the value of single
nodes keeps that of whole trees. The passes on trains ask that the operators they flatten are
associative, and nothing of the domain.
-/

namespace Stepwise.Model

open Stepwise.Expr

universe u

variable {D : Type u}

/-- A transformation after which every tree that can be built still can be, and has its value. -/
def KeepsValue (M : Model D) (f : Expr → Expr) : Prop :=
  ∀ e, e.WellShaped → (f e).WellShaped ∧ ∀ ν, M.value ν (f e) = M.value ν e

section

variable {M : Model D}

theorem KeepsValue.andThen {first second : Expr → Expr} (keepsFirst : M.KeepsValue first)
    (keepsSecond : M.KeepsValue second) : M.KeepsValue (fun e => second (first e)) := by
  intro e shaped
  obtain ⟨middle, sameFirst⟩ := keepsFirst e shaped
  obtain ⟨last, sameSecond⟩ := keepsSecond _ middle
  exact ⟨last, fun ν => (sameSecond ν).trans (sameFirst ν)⟩

theorem value_bottomUp {step : Expr → Expr} (pass : IsPass step) (ν : String → D)
    (same : ∀ e : Expr, e.IsOperand → M.value ν (step e) = M.value ν e) {e : Expr}
    (shaped : e.WellShaped) : M.value ν (bottomUp step e) = M.value ν e := by
  have here {e : Expr} (shaped : e.WellShaped) : M.value ν (step e) = M.value ν e := by
    by_cases isMarker : e.isMarker = true
    · obtain ⟨kind, mark, children⟩ := e
      have isVariadic : kind = .variadic := by simpa using isMarker
      rw [isVariadic, pass.marker]
    · exact same e ⟨shaped, by simpa using isMarker⟩
  induction e using templateInduction with
  | var symbol children =>
      obtain rfl := shaped.children_eq_nil (Or.inr rfl)
      exact here shaped
  | variadicTrain symbol mark template inTemplate =>
      rw [bottomUp_node, here (pass.inside shaped), List.map_singleton, bottomUp_node, pass.marker,
        List.map_singleton, value_variadicTrain, value_variadicTrain, inTemplate]
      exact (shaped.child (List.mem_singleton_self _)).child (List.mem_singleton_self _)
  | other kind symbol children notVar plain each =>
      have stays : (node kind symbol (children.map (bottomUp step))).template? = none := by
        apply template?_of_no_marker
        simp only [List.mem_map]
        rintro _ ⟨child, member, rfl⟩
        rw [(pass.bottomUp (shaped.child member)).2]
        exact shaped.child_isMarker_eq_false plain member
      rw [bottomUp_node, here (pass.inside shaped), value_node _ _ _ _ _ notVar stays,
        value_node _ _ _ _ _ notVar plain, List.map_map]
      exact congrArg (M.apply kind symbol)
        (List.map_congr_left fun child member => each child member (shaped.child member))

theorem keepsValue_bottomUp {step : Expr → Expr} (pass : IsPass step)
    (same : ∀ ν (e : Expr), e.IsOperand → M.value ν (step e) = M.value ν e) :
    M.KeepsValue (bottomUp step) :=
  fun _ shaped => ⟨(pass.bottomUp shaped).1, fun ν => value_bottomUp pass ν (same ν) shaped⟩

end

section

variable (M : Model D) (ν : String → D)

theorem value_group {e : Expr} (operand : e.IsOperand) {symbol : String}
    (isGroup : e.isGroupOf symbol = true) :
    M.value ν e =
      leftFold (M.binary symbol) (M.operation .train symbol []) (e.children.map (M.value ν)) := by
  obtain ⟨kind, name, children⟩ := e
  obtain ⟨groups, rfl, plain⟩ := (isGroupOf_iff _ _ _ _).mp isGroup
  have count := ((wellShaped_iff_of_plain plain).mp operand.1).1
  rcases groups with rfl | rfl
  · have two : children.length = 2 := by simpa [countFault?] using count
    obtain ⟨left, right, rfl⟩ := List.length_eq_two.mp two
    exact M.value_binary ν name left right
  · exact M.value_train ν plain

theorem leftFold_terms {e : Expr} (operand : e.IsOperand) (symbol : String) :
    leftFold (M.binary symbol) (M.operation .train symbol []) ((terms symbol e).map (M.value ν)) =
      M.value ν e := by
  unfold terms
  split
  · rename_i isGroup
    exact (M.value_group ν operand isGroup).symm
  · rfl

theorem value_flattenNode {ops : List String} (assoc : ∀ symbol ∈ ops, M.Associates symbol)
    {e : Expr} (operand : e.IsOperand) : M.value ν (flattenNode ops e) = M.value ν e := by
  unfold flattenNode
  split
  · rename_i merges
    simp only [Bool.and_eq_true, decide_eq_true_eq] at merges
    obtain ⟨⟨known, isGroup⟩, _⟩ := merges
    have each := (isFormation_operand.group operand isGroup).2
    have plain : (train e.symbol (e.children.flatMap (terms e.symbol))).template? = none := by
      apply template?_of_no_marker
      intro term member
      obtain ⟨child, inChildren, inTerms⟩ := List.mem_flatMap.mp member
      exact (isFormation_operand.terms (each child inChildren) e.symbol term inTerms).2
    rw [M.value_train ν plain, M.value_group ν operand isGroup, List.map_flatMap,
      leftFold_flatMap (assoc _ known)]
    · congr 1
      exact List.map_congr_left fun child member =>
        M.leftFold_terms ν (each child member) e.symbol
    · intro child member
      rw [ne_eq, List.map_eq_nil_iff]
      exact isFormation_operand.terms_ne_nil (each child member) e.symbol
  · rfl

theorem value_shortenNode (ops : List String) (e : Expr) :
    M.value ν (shortenNode ops e) = M.value ν e := by
  unfold shortenNode
  split
  · split
    · rw [value_binary, value_node _ _ _ _ _ (by decide) (template?_of_length (by simp))]
      rfl
    · rfl
  · rfl

theorem value_unwrapNode (e : Expr) : M.value ν (unwrapNode e) = M.value ν e := by
  unfold unwrapNode
  split
  · split
    · rfl
    · rename_i symbol term plain
      rw [value_node _ _ _ _ _ (by decide) (by simpa [isVariadicTrain] using plain)]
      rfl
  · rfl

end

end Stepwise.Model
