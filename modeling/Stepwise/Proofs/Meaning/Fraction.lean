import Mathlib.Algebra.GroupWithZero.Basic
import Stepwise.Proofs.Algebra.Shaped
import Stepwise.Proofs.Arithmetic.Numeral
import Stepwise.Proofs.Meaning.Operations

/-!
Cancelling an integer factor of a numerator against one of the denominator. Numerals of the two
quotients by the greatest common divisor take their places, and the fraction keeps its value.
-/

namespace Stepwise.Expr

/-- A rational for every expression. Numerals of integers have their value, and negatives, products
and quotients are what they are called, a quotient only where the divisor is not zero. -/
structure IsValuation (V : Expr → ℚ) : Prop where
  numeral : ∀ symbol (n : Int), Literal.readInt symbol = .ok n → V (const symbol) = n
  negative : ∀ operand, V (unary "-" operand) = -V operand
  product : ∀ kind factors, kind = .binary ∨ kind = .train →
    (node kind "*" factors).WellShaped → V (node kind "*" factors) = (factors.map V).prod
  quotient : ∀ dividend divisor, V divisor ≠ 0 →
    V (binary "/" dividend divisor) = V dividend / V divisor

theorem isValuation_of_isArithmetic {F : Operations ℚ} (arithmetic : F.IsArithmetic)
    (numerals : ∀ symbol (n : Int), Literal.readInt symbol = .ok n → F.apply .const symbol [] = n)
    (ν : String → ℚ) : IsValuation (F.value ν) where
  numeral symbol n read := by
    rw [const, F.value_node ν _ _ _ (by decide)]
    exact numerals symbol n read
  negative operand := by
    rw [unary, F.value_node ν _ _ _ (by decide)]
    exact arithmetic.neg _
  product kind factors joined shaped := arithmetic.value_product ν joined shaped
  quotient dividend divisor nonzero := by
    rw [F.value_binary]
    exact arithmetic.div _ _ nonzero

section

variable {V : Expr → ℚ} (valuation : IsValuation V)

include valuation

theorem IsValuation.value_numeral {n : Int} {e : Expr} (numeral : IsNumeralOf n e) : V e = n := by
  cases numeral with
  | natural _ read => exact valuation.numeral _ _ read
  | negative _ read => rw [valuation.negative, valuation.numeral _ _ read, Int.cast_neg, neg_neg]

theorem IsValuation.value_factors {part : Expr} (operand : part.IsOperand) :
    V part = ((asTrain "*" part).children.map V).prod := by
  obtain ⟨kind, symbol, children⟩ := part
  unfold asTrain
  split
  · rename_i isProduct
    simp only [Bool.and_eq_true, Bool.or_eq_true, kind_node, symbol_node] at isProduct
    obtain ⟨isTimes, joined⟩ := isProduct
    obtain rfl : symbol = "*" := of_decide_eq_true isTimes
    exact valuation.product kind children (joined.imp of_decide_eq_true of_decide_eq_true) operand.1
  · simp [train]

theorem IsValuation.value_set_factor {part factor new : Expr} {place : Nat}
    (operand : part.IsOperand) (stands : (asTrain "*" part).children[place]? = some factor)
    (newOperand : new.IsOperand) {scale : ℚ} (multiple : V factor = scale * V new) :
    V part = scale * V (train "*" ((asTrain "*" part).children.set place new)) := by
  have inside := (List.getElem?_eq_some_iff.mp stands).1
  have before := (Operations.values_perm V stands).prod_eq
  have after := (Operations.values_perm V (List.getElem?_set_self (a := new) inside)).prod_eq
  have changed := valuation.product .train _ (Or.inr rfl) (operand.set_factor place newOperand).1
  rw [List.prod_cons] at before after
  rw [List.eraseIdx_set_eq] at after
  calc V part = V factor * (((asTrain "*" part).children.eraseIdx place).map V).prod := by
        rw [before, valuation.value_factors operand]
    _ = scale * (V new * (((asTrain "*" part).children.eraseIdx place).map V).prod) := by
        rw [multiple, mul_assoc]
    _ = scale * V (train "*" ((asTrain "*" part).children.set place new)) := by
        rw [after, train, changed]

theorem IsValuation.value_fraction {numerator denominator newNumerator newDenominator : Expr}
    {scale : ℚ} (above : V numerator = scale * V newNumerator)
    (below : V denominator = scale * V newDenominator) (nonzero : V denominator ≠ 0) :
    V (binary "/" newNumerator newDenominator) = V (binary "/" numerator denominator) := by
  obtain ⟨scaled, divisor⟩ := mul_ne_zero_iff.mp (below ▸ nonzero)
  rw [valuation.quotient _ _ nonzero, valuation.quotient _ _ divisor, above, below,
    mul_div_mul_left _ _ scaled]

end

theorem cancelled_int {a b : Int} (notBoth : a ≠ 0 ∨ b ≠ 0) :
    ∃ p q : Int, cancelled (.int a) (.int b) = .ok (.int p, .int q) ∧
      a = Int.gcd a b * p ∧ b = Int.gcd a b * q ∧ Int.gcd p q = 1 := by
  have positive : 0 < Int.gcd a b := Int.gcd_pos_iff.mpr notBoth
  refine ⟨a / Int.gcd a b, b / Int.gcd a b, ?_, ?_, ?_, ?_⟩
  · simp [cancelled, positive.ne']
  · exact (Int.mul_ediv_cancel' (Int.gcd_dvd_left a b)).symm
  · exact (Int.mul_ediv_cancel' (Int.gcd_dvd_right a b)).symm
  · exact Int.gcd_ediv_gcd_ediv_gcd positive

theorem cancel_of_numerals {numerator denominator : Expr} {i j : Nat} {top bottom : String}
    {a b p q : Int}
    (above : (asTrain "*" numerator).children[i]? = some (const top))
    (below : (asTrain "*" denominator).children[j]? = some (const bottom))
    (readTop : Literal.readInt top = .ok a) (readBottom : Literal.readInt bottom = .ok b)
    (divided : cancelled (.int a) (.int b) = .ok (.int p, .int q)) :
    (binary "/" numerator denominator).cancel i j = .ok (binary "/"
      (train "*" ((asTrain "*" numerator).children.set i (ofNumber (.int p))))
      (train "*" ((asTrain "*" denominator).children.set j (ofNumber (.int q))))) := by
  have numeral {symbol : String} {n : Int} (read : Literal.readInt symbol = .ok n) :
      (const symbol).numeral? = some (.int n) := by
    simp [numeral?, const, isConst, Number.read, read]
  simp [cancel, binary, Index.forward?, above, below, numeral readTop, numeral readBottom, divided,
    bind, Except.bind, pure, Except.pure]

/-- Cancelling two integer factors that are not both zero always succeeds. It changes these factors
only, to numerals of coprime integers that they are the same multiple of, and keeps the value of the
fraction wherever the denominator is not zero. -/
theorem cancel_reduces {numerator denominator : Expr} {i j : Nat} {top bottom : String} {a b : Int}
    (shaped : (binary "/" numerator denominator).WellShaped)
    (above : (asTrain "*" numerator).children[i]? = some (const top))
    (below : (asTrain "*" denominator).children[j]? = some (const bottom))
    (readTop : Literal.readInt top = .ok a) (readBottom : Literal.readInt bottom = .ok b)
    (notBoth : a ≠ 0 ∨ b ≠ 0) :
    ∃ p q newTop newBottom result,
      (binary "/" numerator denominator).cancel i j = .ok result ∧
      result = binary "/" (train "*" ((asTrain "*" numerator).children.set i newTop))
        (train "*" ((asTrain "*" denominator).children.set j newBottom)) ∧
      IsNumeralOf p newTop ∧ IsNumeralOf q newBottom ∧
      a = Int.gcd a b * p ∧ b = Int.gcd a b * q ∧ Int.gcd p q = 1 ∧ result.WellShaped ∧
      ∀ V, IsValuation V → V denominator ≠ 0 →
        V result = V (binary "/" numerator denominator) := by
  obtain ⟨p, q, divided, timesP, timesQ, coprime⟩ := cancelled_int notBoth
  have smaller {m n : Int} (times : m = Int.gcd a b * n) : n.natAbs ≤ m.natAbs := by
    rw [times, Int.natAbs_mul, Int.natAbs_natCast]
    exact Nat.le_mul_of_pos_left _ (Int.gcd_pos_iff.mpr notBoth)
  have newTop := isNumeralOf_ofNumber readTop (smaller timesP)
  have newBottom := isNumeralOf_ofNumber readBottom (smaller timesQ)
  have cancels := cancel_of_numerals above below readTop readBottom divided
  refine ⟨p, q, _, _, _, cancels, rfl, newTop, newBottom, timesP, timesQ, coprime,
    wellShaped_of_cancel shaped cancels, fun V valuation nonzero => ?_⟩
  have operands := ((wellShaped_iff_of_plain rfl).mp shaped).2
  have multiple {symbol : String} {m n : Int} {new : Expr} (read : Literal.readInt symbol = .ok m)
      (numeral : IsNumeralOf n new) (times : m = Int.gcd a b * n) :
      V (const symbol) = Int.gcd a b * V new := by
    rw [valuation.numeral _ _ read, valuation.value_numeral numeral]
    exact_mod_cast times
  have numerators := valuation.value_set_factor (operands numerator (by simp)) above
    (isOperand_ofNumber _) (multiple readTop newTop timesP)
  have denominators := valuation.value_set_factor (operands denominator (by simp)) below
    (isOperand_ofNumber _) (multiple readBottom newBottom timesQ)
  exact valuation.value_fraction numerators denominators nonzero

/-- A numerator that is not a product and has its sign in the numeral. -/
theorem cancel_reduces_negative :
    let F := Operations.ofInterpretation .standard
    let denominator := train "*" [var "x", const "4", var "y"]
    let fraction := binary "/" (const "-6") denominator
    let result := binary "/" (train "*" [unary "-" (const "3")])
      (train "*" [var "x", const "2", var "y"])
    fraction.cancel 0 1 = .ok result ∧
      ∀ ν, F.value ν denominator ≠ 0 → F.value ν result = F.value ν fraction := by
  intro F denominator fraction result
  have cancels : fraction.cancel 0 1 = .ok result := by decide +kernel
  have readTop : Literal.readInt "-6" = .ok (-6) := by decide +kernel
  have readBottom : Literal.readInt "4" = .ok 4 := by decide +kernel
  obtain ⟨_, _, _, _, other, finished, _, _, _, _, _, _, _, keeps⟩ :=
    cancel_reduces (i := 0) (j := 1) (by decide : fraction.WellShaped) rfl rfl readTop readBottom
      (Or.inl (by decide))
  obtain rfl : result = other := Except.ok.inj (cancels.symm.trans finished)
  refine ⟨cancels, fun ν nonzero => keeps (F.value ν) ?_ nonzero⟩
  refine isValuation_of_isArithmetic Operations.standard_isArithmetic (fun symbol n read => ?_) ν
  simp [Operations.ofInterpretation, Interpretation.apply, Interpretation.standard, read]

end Stepwise.Expr
