import Stepwise.Proofs.Algebra.Shaped
import Stepwise.Proofs.Meaning.Operations

/-!
The steps that are suggested for two addresses mean what they should. Exchanging operands of a sum
or a product keeps its value. Doing the inverse operation on both sides of an equation keeps its
solutions, and takes the selected operand off its side.
-/

namespace Stepwise.Operations

open Stepwise.Expr

universe u

variable {K : Type u} [Field K]

def remaining (F : Operations K) (ν : String → K) (side : Expr) (place : Nat) : K :=
  if side.symbol = "+" then ((side.children.eraseIdx place).map (F.value ν)).sum
  else if side.symbol = "*" then ((side.children.eraseIdx place).map (F.value ν)).prod
  else (side.children.map (F.value ν)).headD 0

section

variable {F : Operations K} (arithmetic : F.IsArithmetic)

include arithmetic

theorem IsArithmetic.value_reordered {parent swapped : Expr} (shaped : parent.WellShaped)
    {i j : Int} (exchanged : parent.reordered? i j = .ok (some swapped)) (ν : String → K) :
    F.value ν swapped = F.value ν parent := by
  obtain ⟨children, built, same, commutes, joined⟩ := reordered?_eq_ok exchanged
  obtain ⟨kind, symbol, operands⟩ := parent
  have swappedShaped := wellShaped_of_build built fun child member =>
    shaped.child (same.mem_iff.mp member)
  obtain rfl := eq_of_build built
  simp only [kind_node, symbol_node, children_node] at same commutes joined swappedShaped ⊢
  have values := same.map (F.value ν)
  have isGroup := joined.symm
  rcases List.mem_pair.mp commutes with rfl | rfl
  · rw [arithmetic.value_sum ν isGroup swappedShaped, arithmetic.value_sum ν isGroup shaped,
      values.sum_eq]
  · rw [arithmetic.value_product ν isGroup swappedShaped, arithmetic.value_product ν isGroup shaped,
      values.prod_eq]

theorem IsArithmetic.joined_eq_iff {symbol : String} (known : symbol ∈ ["+", "-", "*", "/"])
    {z : K} (nonzero : symbol ∈ ["*", "/"] → z ≠ 0) (x y : K) :
    F.apply .binary symbol [x, z] = F.apply .binary symbol [y, z] ↔ x = y := by
  simp only [List.mem_cons, List.not_mem_nil, or_false] at known
  rcases known with rfl | rfl | rfl | rfl
  · rw [arithmetic.add, arithmetic.add, add_left_inj]
  · rw [arithmetic.sub, arithmetic.sub, sub_left_inj]
  · rw [arithmetic.mul, arithmetic.mul, mul_left_inj' (nonzero (by simp))]
  · rw [arithmetic.div _ _ (nonzero (by simp)), arithmetic.div _ _ (nonzero (by simp)),
      div_left_inj' (nonzero (by simp))]

theorem IsArithmetic.value_takesOff {side operand : Expr} (shaped : side.WellShaped) {place : Nat}
    {symbol : String} (takes : TakesOff side place symbol)
    (stands : side.children[place]? = some operand) {ν : String → K}
    (nonzero : symbol ∈ ["*", "/"] → F.value ν operand ≠ 0) :
    F.value ν (binary symbol side operand) = F.remaining ν side place := by
  rw [value_binary]
  cases takes with
  | @summand kind terms _ joined =>
      have split : (terms.map (F.value ν)).sum = _ := (values_perm (F.value ν) stands).sum_eq.symm
      rw [arithmetic.sub, arithmetic.value_sum ν joined shaped, split]
      simp [remaining]
  | @factor kind terms _ joined =>
      have divides : F.value ν operand ≠ 0 := nonzero (by simp)
      have split : (terms.map (F.value ν)).prod = _ := (values_perm (F.value ν) stands).prod_eq.symm
      rw [arithmetic.div _ _ divides, arithmetic.value_product ν joined shaped, split]
      simp [remaining, divides]
  | @subtrahend left right =>
      obtain rfl : right = operand := Option.some.inj stands
      rw [arithmetic.add, value_binary, arithmetic.sub, sub_add_cancel]
      rfl
  | @divisor left right =>
      obtain rfl : right = operand := Option.some.inj stands
      have divides : F.value ν right ≠ 0 := nonzero (by simp)
      rw [arithmetic.mul, value_binary, arithmetic.div _ _ divides, div_mul_cancel₀ _ divides]
      rfl

end

/-- The steps for two addresses are sound, whatever the operators other than those of arithmetic
mean: an exchange keeps the value, and an operation on both sides gives an equation that holds
exactly where the one before it does and in which the operand is taken off its side, if a factor or
a divisor is not zero. -/
theorem pairSuggestions_sound (F : Operations K) (arithmetic : F.IsArithmetic) (e : Expr)
    (shaped : e.WellShaped) (first second : Address) (listed : List Suggestion) :
    (e.reorderActions first second = .ok listed → ∀ pair ∈ listed,
      pair.1 = .step "Reorder" ∧ ∀ ν, F.value ν pair.2 = F.value ν e) ∧
    (e.bothSideActions first second = .ok listed → ∀ pair ∈ listed,
      ∃ lhs rhs side place operand symbol,
        SelectsOperand e first second lhs rhs side place operand ∧ TakesOff side place symbol ∧
        pair.1 = .step ("Apply " ++ symbol ++ operand.display ++ " to both side") ∧
        e.replace (equation (binary symbol lhs operand) (binary symbol rhs operand))
          ⟨first.path, none⟩ = .ok pair.2 ∧
        ∀ ν, (symbol ∈ ["*", "/"] → F.value ν operand ≠ 0) →
          (F.value ν (binary symbol lhs operand) = F.value ν (binary symbol rhs operand) ↔
            F.value ν lhs = F.value ν rhs) ∧
          F.value ν (binary symbol side operand) = F.remaining ν side place) := by
  constructor
  · rintro found ⟨action, result⟩ member
    have step := (@reorderActions_finds e [] first second).value found _ member
    cases step with
    | intro reached exchanged replaced =>
        exact ⟨rfl, fun ν => F.value_replace
          (arithmetic.value_reordered (shaped.nodeAt reached) exchanged ν) reached replaced⟩
  · rintro found ⟨action, result⟩ member
    have step := (@bothSideActions_finds e [] first second).value found _ member
    obtain ⟨lhs, rhs, side, place, operand, symbol, selects, takes, described, replaced⟩ :=
      step.joins shaped
    refine ⟨lhs, rhs, side, place, operand, symbol, selects, takes, described, replaced, ?_⟩
    intro ν nonzero
    rw [value_binary, value_binary]
    exact ⟨arithmetic.joined_eq_iff takes.known nonzero _ _,
      arithmetic.value_takesOff (selects.side_wellShaped shaped) takes selects.operand nonzero⟩

/-- A product is divided by its last factor, which has the name of the function's argument; its
factors are exchanged. The equation is the premise of an implication. -/
theorem pairSuggestions_sound_product :
    let F := ofInterpretation .standard
    let e := implication
      (equation (train "*" [const "2", var "x", var "X"]) (unary "-" (var "X"))) (var "p")
    let divided := implication
      (equation (binary "/" (train "*" [const "2", var "x", var "X"]) (var "X"))
        (binary "/" (unary "-" (var "X")) (var "X"))) (var "p")
    let reordered := implication
      (equation (train "*" [var "X", var "x", const "2"]) (unary "-" (var "X"))) (var "p")
    (e.reorderActions ⟨[0, 0, 0], none⟩ ⟨[0, 0, 2], none⟩ = .ok [(.step "Reorder", reordered)] ∧
      ∀ ν, F.value ν reordered = F.value ν e) ∧
    e.bothSideActions ⟨[0], none⟩ ⟨[0, 0, 2], none⟩ =
        .ok [(.step "Apply /X to both side", divided)] ∧
      ∃ lhs rhs side place operand symbol,
        SelectsOperand e ⟨[0], none⟩ ⟨[0, 0, 2], none⟩ lhs rhs side place operand ∧
        TakesOff side place symbol ∧
        Action.step "Apply /X to both side" =
          .step ("Apply " ++ symbol ++ operand.display ++ " to both side") ∧
        e.replace (equation (binary symbol lhs operand) (binary symbol rhs operand))
          ⟨[0], none⟩ = .ok divided ∧
        ∀ ν, (symbol ∈ ["*", "/"] → F.value ν operand ≠ 0) →
          (F.value ν (binary symbol lhs operand) = F.value ν (binary symbol rhs operand) ↔
            F.value ν lhs = F.value ν rhs) ∧
          F.value ν (binary symbol side operand) = F.remaining ν side place := by
  intro F e divided reordered
  have exchanged : e.reorderActions ⟨[0, 0, 0], none⟩ ⟨[0, 0, 2], none⟩ =
      .ok [(.step "Reorder", reordered)] := by decide +kernel
  have joined : e.bothSideActions ⟨[0], none⟩ ⟨[0, 0, 2], none⟩ =
      .ok [(.step "Apply /X to both side", divided)] := by decide +kernel
  have sound := pairSuggestions_sound F standard_isArithmetic e (by decide)
  exact ⟨⟨exchanged, ((sound _ _ _).1 exchanged _ (List.mem_singleton_self _)).2⟩, joined,
    (sound _ _ _).2 joined _ (List.mem_singleton_self _)⟩

end Stepwise.Operations
