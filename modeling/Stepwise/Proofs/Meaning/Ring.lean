import Mathlib.Algebra.Ring.Int.Defs
import Mathlib.Data.Int.Cast.Basic
import Stepwise.Proofs.Meaning.NormalForm

/-!
Models over a ring. The normal form has the value of the expression: subtracting is adding the
negative, the operands that are dropped are neutral, and a factor 0 makes a product 0.
-/

namespace Stepwise.Model

open Stepwise.Expr

universe u

variable {R : Type u} [Ring R]

structure IsRing (M : Model R) : Prop where
  add : ∀ x y, M.binary "+" x y = x + y
  mul : ∀ x y, M.binary "*" x y = x * y
  sub : ∀ x y, M.binary "-" x y = x - y
  neg : ∀ x, M.unary "-" x = -x

structure ReadsZeroOne (M : Model R) : Prop where
  zero : ∀ symbol, (const symbol).isInteger 0 = true → M.constant symbol = 0
  one : ∀ symbol, (const symbol).isInteger 1 = true → M.constant symbol = 1

/-- The integer that a numeral stands for, also if it is written as a decimal fraction. -/
def integerOf (symbol : String) : Int :=
  match Number.read symbol with
  | some (.int value) => value
  | some (.double value) => value.toInt?.getD 0
  | none => 0

/-- Integers mean themselves, and a variadic train means what its template means. -/
def integers : Model ℤ where
  operation
    | .const, symbol, _ => integerOf symbol
    | .unary, _, [x] => -x
    | .binary, symbol, [x, y] =>
        if symbol = "+" then x + y else if symbol = "-" then x - y
        else if symbol = "*" then x * y else x / y
    | _, _, _ => 0
  repetition _ _ x := x

theorem integers_isRing : integers.IsRing where
  add x y := by simp [binary, integers]
  mul x y := by simp [binary, integers]
  sub x y := by simp [binary, integers]
  neg x := rfl

theorem integers_constant {symbol : String} {n : Int}
    (reads : (const symbol).isInteger n = true) : integers.constant symbol = n := by
  change integerOf symbol = n
  unfold isInteger numeral? at reads
  rw [if_pos (by rfl : (const symbol).isConst = true)] at reads
  unfold integerOf
  cases written : Number.read symbol with
  | none => simp [Expr.const, written] at reads
  | some value =>
      cases value with
      | int value => simpa [Expr.const, written, Number.equalsInt] using reads
      | double value =>
          have known : value.toInt? = some n := by
            simpa [Expr.const, written, Number.equalsInt] using reads
          simp [known]

theorem integers_readsZeroOne : integers.ReadsZeroOne where
  zero _ reads := integers_constant reads
  one _ reads := integers_constant reads

section

variable {M : Model R} (ring : M.IsRing) (ν : String → R)

include ring

theorem IsRing.associates {symbol : String} (known : symbol ∈ ["+", "*"]) :
    M.Associates symbol := by
  simp only [List.mem_cons, List.not_mem_nil, or_false] at known
  intro x y z
  rcases known with rfl | rfl
  · simp only [ring.add, add_assoc]
  · simp only [ring.mul, mul_assoc]

theorem IsRing.distributes (x y z : R) : M.binary "*" x (M.binary "+" y z) =
    M.binary "+" (M.binary "*" x y) (M.binary "*" x z) := by
  simp only [ring.add, ring.mul, mul_add]

theorem value_subToNegativeNode (e : Expr) :
    M.value ν (subToNegativeNode .usual e) = M.value ν e := by
  rcases subToNegativeNode_cases .usual e with ⟨same, _⟩ | ⟨left, right, rfl, turned⟩
  · rw [same]
  · rw [turned, value_binary, value_unary, value_binary]
    simp only [SubtractionSymbols.usual, ring.add, ring.sub, ring.neg]
    exact (sub_eq_add_neg _ _).symm

theorem value_negativeToSubNode (e : Expr) :
    M.value ν (negativeToSubNode .usual e) = M.value ν e := by
  rcases negativeToSubNode_cases .usual e with same | ⟨left, operand, rfl, turned⟩
  · rw [same]
  · rw [turned, value_binary, value_binary, value_unary]
    simp only [SubtractionSymbols.usual, ring.add, ring.sub, ring.neg]
    exact sub_eq_add_neg _ _

theorem IsRing.neutral (numerals : M.ReadsZeroOne) {symbol : String} {neutral : Int}
    (known : neutral? symbol = some neutral) :
    (∀ x, M.binary symbol neutral x = x) ∧ (∀ x, M.binary symbol x neutral = x) ∧
      M.constant (toString neutral) = neutral ∧
      ∀ name, (const name).isInteger neutral = true → M.constant name = neutral := by
  unfold neutral? at known
  split at known
  · rename_i isSum
    obtain rfl := Option.some.inj known
    rw [isSum, Int.cast_zero]
    exact ⟨by simp [ring.add], by simp [ring.add], numerals.zero "0" (by decide +kernel),
      numerals.zero⟩
  · split at known
    · rename_i isProduct
      obtain rfl := Option.some.inj known
      rw [isProduct, Int.cast_one]
      exact ⟨by simp [ring.mul], by simp [ring.mul], numerals.one "1" (by decide +kernel),
        numerals.one⟩
    · simp at known

end

theorem eq_const_of_isInteger {e : Expr} (operand : e.IsOperand) {n : Int}
    (reads : e.isInteger n = true) : ∃ symbol, e = const symbol := by
  obtain ⟨kind, symbol, children⟩ := e
  by_cases isConst : kind = .const
  · subst isConst
    rw [operand.1.children_eq_nil (Or.inl rfl)]
    exact ⟨symbol, rfl⟩
  · simp [isInteger, numeral?, Expr.isConst, isConst] at reads

section

variable {M : Model R} (ring : M.IsRing) (numerals : M.ReadsZeroOne) (ν : String → R)

include ring numerals

theorem value_ofKept {symbol : String} {neutral : Int} (known : neutral? symbol = some neutral)
    {kept : List Expr} (each : ∀ child ∈ kept, child.isMarker = false) :
    M.value ν (ofKept symbol neutral kept) =
      (kept.map (M.value ν)).foldl (M.binary symbol) neutral := by
  obtain ⟨left, _, written, _⟩ := ring.neutral numerals known
  unfold ofKept
  split
  · rw [value_const, written]
    rfl
  · rw [List.map_singleton, List.foldl_cons, left]
    rfl
  · rename_i nonempty _
    rw [M.value_train ν (template?_of_no_marker each), leftFold_eq_foldl _ left]
    rw [ne_eq, List.map_eq_nil_iff]
    exact nonempty

theorem value_simplifyNode {e : Expr} (operand : e.IsOperand) :
    M.value ν (simplifyNode e) = M.value ν e := by
  rcases simplifyNode_cases e with
    ⟨same, _⟩ | ⟨isGroup, ⟨zero, member, isZero⟩, turned⟩ | ⟨neutral, isGroup, known, _, _, turned⟩
  · rw [same]
  · have each := (isFormation_operand.group operand isGroup).2
    obtain ⟨symbol, rfl⟩ := eq_const_of_isInteger (each zero member) isZero
    have factor : (0 : R) ∈ e.children.map (M.value ν) := by
      rw [← numerals.zero symbol isZero, ← M.value_const ν symbol]
      exact List.mem_map_of_mem member
    rw [turned, value_const, numerals.zero "0" (by decide +kernel), M.value_group ν operand isGroup,
      leftFold_eq_foldl _ (by simp [ring.mul] : ∀ x, M.binary "*" 1 x = x)
        (List.ne_nil_of_mem factor)]
    exact (foldl_absorbing (by simp [ring.mul]) (by simp [ring.mul]) factor 1).symm
  · have each := (isFormation_operand.group operand isGroup).2
    have nonempty := isFormation_operand.group_ne_nil operand isGroup
    obtain ⟨left, right, _, recognized⟩ := ring.neutral numerals known
    have kept : ∀ child ∈ e.children.filter (fun child => !child.isInteger neutral),
        child.isMarker = false :=
      fun child member => (each child (List.mem_filter.mp member).1).2
    rw [turned, value_ofKept ring numerals ν known kept, M.value_group ν operand isGroup,
      leftFold_eq_foldl _ left (by simpa using nonempty)]
    apply foldl_filter _ right
    intro child member dropped
    have isNeutral : child.isInteger neutral = true := by simpa using dropped
    obtain ⟨symbol, rfl⟩ := eq_const_of_isInteger (each child member) isNeutral
    rw [value_const, recognized symbol isNeutral]

/-! The normal form. -/

theorem keepsValue_regroup (ctx : Context) (assoc : ∀ symbol ∈ ctx.assocOps, M.Associates symbol) :
    M.KeepsValue (regroup ctx) := by
  have simplified : M.KeepsValue simplify := keepsValue_bottomUp isPass_simplifyNode
    fun ν _ => value_simplifyNode ring numerals ν
  have flattened : M.KeepsValue (flatten ctx.assocOps) := keepsValue_bottomUp
    (isPass_flattenNode _) fun ν _ => M.value_flattenNode ν assoc
  have shortened : M.KeepsValue (shorten ctx.binaryOps) := keepsValue_bottomUp
    (isPass_shortenNode _) fun ν e _ => M.value_shortenNode ν _ e
  have unwrapped : M.KeepsValue unwrap := keepsValue_bottomUp isPass_unwrapNode
    fun ν e _ => M.value_unwrapNode ν e
  have grouped := (flattened.andThen shortened).andThen unwrapped
  unfold regroup
  split
  · exact simplified.andThen grouped
  · exact grouped

/-- The normal form has the value of the expression, under every valuation. -/
theorem normalize_keeps_value (ctx : Context)
    (assoc : ∀ symbol ∈ ctx.assocOps, M.Associates symbol) (e : Expr) (shaped : e.WellShaped) :
    (Expr.normalize ctx e).WellShaped ∧
      ∀ ν, M.value ν (Expr.normalize ctx e) = M.value ν e := by
  have grouped := keepsValue_regroup ring numerals ctx assoc
  have negated : M.KeepsValue (subToNegative .usual) := keepsValue_bottomUp
    (isPass_subToNegativeNode _) fun ν e _ => value_subToNegativeNode ring ν e
  have restored : M.KeepsValue (negativeToSub .usual) := keepsValue_bottomUp
    (isPass_negativeToSubNode _) fun ν e _ => value_negativeToSubNode ring ν e
  unfold Expr.normalize
  split
  · exact ((negated.andThen grouped).andThen restored) e shaped
  · exact grouped e shaped

end

/-- A difference whose second operand is a nested sum with trivial operands. -/
theorem normalize_keeps_value_difference :
    let ctx : Context := { Context.arithmetic [] with flags := [simplifyFlag] }
    let e := Expr.binary "-" (var "x")
      (train "+" [const "0", .binary "*" (const "1.0") (var "y"), .binary "+" (var "z") (const "2")])
    Expr.normalize ctx e = Expr.binary "-" (var "x") (train "+" [var "y", var "z", const "2"]) ∧
      ∀ ν, integers.value ν (Expr.normalize ctx e) = integers.value ν e := by
  refine ⟨by decide +kernel, ?_⟩
  exact (normalize_keeps_value integers_isRing integers_readsZeroOne _
    (fun symbol known => integers_isRing.associates known) _ (by decide)).2

end Stepwise.Model
