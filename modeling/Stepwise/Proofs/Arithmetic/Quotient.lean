import Stepwise.Proofs.Arithmetic.Calculation
import Stepwise.Proofs.Arithmetic.Numeral
import Stepwise.Proofs.Arithmetic.Overflow

/-!
Quotients of two integers without a remainder. They are calculated as doubles, so that the result is
the exact quotient only if that has a double of its own; otherwise it is the integer of the nearest
one.
-/

namespace Stepwise

open Double (signed roundSignificant significantBits integerLimit)

namespace Number

def nearestDouble (n : Int) : Int := signed (n < 0) (roundSignificant n.natAbs 1)

theorem nearestDouble_eq_self_iff (n : Int) :
    nearestDouble n = n ↔ Double.Representable n.natAbs := by
  rw [← Double.roundSignificant_eq_self_iff, nearestDouble, signed]
  by_cases negative : n < 0
  · simp only [negative, decide_true, if_true]
    omega
  · simp only [negative, decide_false, Bool.false_eq_true, if_false]
    omega

theorem nearestDouble_near (n : Int) :
    2 ^ significantBits * (nearestDouble n - n).natAbs ≤ n.natAbs := by
  have near := Double.roundSignificant_near n.natAbs
  rw [nearestDouble, signed]
  simp only [significantBits, decide_eq_true_eq] at near ⊢
  split
  · omega
  · omega

theorem natAbs_nearestDouble (n : Int) :
    (nearestDouble n).natAbs = roundSignificant n.natAbs 1 := by
  rw [nearestDouble, signed]
  split
  · rw [Int.natAbs_neg, Int.natAbs_natCast]
  · rw [Int.natAbs_natCast]

theorem natAbs_nearestDouble_lt {n : Int} (within : n.natAbs < integerLimit) :
    (nearestDouble n).natAbs < 2 * integerLimit := by
  have near := Double.roundSignificant_near n.natAbs
  rw [natAbs_nearestDouble]
  simp only [significantBits] at near
  omega

theorem signed_quotient {b : Int} (nonzero : b ≠ 0) (q : Int) :
    signed ((b * q < 0) != (b < 0)) (roundSignificant q.natAbs 1) = nearestDouble q := by
  rcases Int.lt_trichotomy q 0 with below | rfl | above
  · rcases Int.lt_or_gt_of_ne nonzero with negative | positive
    · have sign : ¬b * q < 0 := Int.not_lt.mpr (Int.le_of_lt (Int.mul_pos_of_neg_of_neg negative below))
      simp [nearestDouble, below, negative, sign]
    · have sign : b * q < 0 := Int.mul_neg_of_pos_of_neg positive below
      have notNegative : ¬b < 0 := Int.not_lt.mpr (Int.le_of_lt positive)
      simp [nearestDouble, below, notNegative, sign]
  · have zero : roundSignificant 0 1 = 0 :=
      (Double.roundSignificant_eq_self_iff 0).mpr (Double.representable_of_le (Nat.zero_le _))
    simp [nearestDouble, zero, signed]
  · have notBelow : ¬q < 0 := Int.not_lt.mpr (Int.le_of_lt above)
    rcases Int.lt_or_gt_of_ne nonzero with negative | positive
    · have sign : b * q < 0 := Int.mul_neg_of_neg_of_pos negative above
      simp [nearestDouble, notBelow, negative, sign]
    · have sign : ¬b * q < 0 := Int.not_lt.mpr (Int.le_of_lt (Int.mul_pos positive above))
      have notNegative : ¬b < 0 := Int.not_lt.mpr (Int.le_of_lt positive)
      simp [nearestDouble, notBelow, notNegative, sign]

theorem div_of_dvd {a b : Int} (nonzero : b ≠ 0) (divides : b ∣ a)
    (within : a.natAbs < integerLimit) :
    ∃ d, (int a).div (int b) = .ok (double d) ∧ d.isFinite = true ∧
      d.toInt? = some (nearestDouble (a / b)) := by
  have positive : 0 < b.natAbs := Int.natAbs_pos.mpr nonzero
  obtain ⟨q, rfl⟩ := divides
  have smaller : q.natAbs ≤ (b * q).natAbs := by
    rw [Int.natAbs_mul]
    exact Nat.le_mul_of_pos_left _ positive
  have room : ¬integerLimit * b.natAbs ≤ (b * q).natAbs :=
    Nat.not_le.mpr (Nat.lt_of_lt_of_le within (Nat.le_mul_of_pos_right _ positive))
  refine ⟨_, by rw [div_int _ _ nonzero, if_neg room], ?_, ?_⟩
  · rw [Int.natAbs_mul, Nat.mul_comm, Double.ofRatio_of_dvd _ positive (by omega)]
    rfl
  · rw [Int.natAbs_mul, Nat.mul_comm, Double.ofRatio_of_dvd _ positive (by omega),
      Double.toInt?_finite, signed_quotient nonzero, Int.mul_ediv_cancel_left _ nonzero]

theorem text_of_toInt {d : Double} {n : Int} (integral : d.toInt? = some n) :
    (double d).text = toString n := by
  rw [text, integral]

theorem toInt?_eq_some {d : Double} {n : Int} (integral : d.toInt? = some n) :
    ∃ negative m, d = .finite negative (m * Double.unitsInOne) ∧ n = signed negative m := by
  unfold Double.toInt? at integral
  split at integral
  · rename_i negative magnitude
    split at integral
    · rename_i whole
      refine ⟨negative, magnitude / Double.unitsInOne, ?_, (Option.some.inj integral).symm⟩
      rw [Nat.div_mul_cancel (Nat.dvd_of_mod_eq_zero whole)]
    · simp at integral
  · simp at integral

theorem neg_text_of_toInt {d : Double} {n : Int} (integral : d.toInt? = some n) :
    (double d).neg.text = toString (-n) := by
  obtain ⟨negative, m, rfl, rfl⟩ := toInt?_eq_some integral
  rw [neg, Double.neg, text_of_toInt (Double.toInt?_finite _ _)]
  cases negative <;> simp [signed]

theorem isNegative_of_toInt {d : Double} {n : Int} (integral : d.toInt? = some n) :
    (double d).isNegative = (int n).isNegative := by
  obtain ⟨negative, m, rfl, rfl⟩ := toInt?_eq_some integral
  have zero : m * Double.unitsInOne = 0 ↔ m = 0 :=
    Nat.mul_eq_zero.trans (or_iff_left (Nat.ne_of_gt Double.unitsInOne_pos))
  rw [isNegative, isNegative, Double.isNegative, signed]
  cases negative with
  | false => simp
  | true =>
      have same : (m * Double.unitsInOne == 0) = decide (m = 0) := by
        rw [Bool.eq_iff_iff, beq_iff_eq, decide_eq_true_iff, zero]
      simp [bne, same, Nat.pos_iff_ne_zero]

end Number

namespace Expr

theorem ofNumber_of_toInt {d : Double} {n : Int} (integral : d.toInt? = some n) :
    ofNumber (.double d) = ofNumber (.int n) := by
  rw [ofNumber, ofNumber, Number.isNegative_of_toInt integral, Number.text_of_toInt integral,
    Number.neg_text_of_toInt integral]
  rfl

/-- A quotient of integers without a remainder is calculated, and the line that is written for it
has the numeral of the double nearest to the exact quotient. The line is true if and only if the
exact quotient has no more significant bits than a double keeps. -/
theorem calculation_of_exact_quotient {a b : Int} {top bottom : Expr} (above : Denotes a top)
    (below : Denotes b bottom) (nonzero : b ≠ 0) (divides : b ∣ a)
    (aWithin : a.natAbs < integerLimit) (bWithin : b.natAbs < integerLimit) :
    ∃ result n, (binary "/" top bottom).value = .ok (some result) ∧
      IsNumeralOf n (ofNumber result) ∧
      (binary "/" top bottom).calculation .root =
        .ok (equation (binary "/" top bottom) (ofNumber result),
          "Calculate " ++ (binary "/" top bottom).toInfix false ++ " = " ++ toString n) ∧
      (n = a / b ↔ Double.Representable (a / b).natAbs) ∧
      2 ^ significantBits * (n - a / b).natAbs ≤ (a / b).natAbs := by
  obtain ⟨d, divided, finite, integral⟩ := Number.div_of_dvd nonzero divides aWithin
  have operands : valueEach [top, bottom] = .ok (some [.int a, .int b]) := by
    simp only [valueEach, above.value aWithin, below.value bWithin]
  have applied : Operation.div.apply [.int a, .int b] = .ok (some (.double d)) := by
    have notZero : ¬(Number.int b).isZero = true := by simpa [Number.isZero] using nonzero
    rw [Operation.apply, Operation.quotient, if_neg notZero, divided]
    rfl
  have kept : finiteOnly (some (.double d)) = .ok (some (.double d)) := by
    rw [finiteOnly, Number.isFinite_double, finite]
    rfl
  have valued : (binary "/" top bottom).value = .ok (some (.double d)) := by
    rw [binary, value_operation rfl, operands]
    simp only [applied]
    exact kept
  have calculable : (binary "/" top bottom).isCalculable = .ok true := by
    rw [isCalculable, valued]
    rfl
  have closed : (binary "/" top bottom).containsVariable = false := by
    cases above <;> cases below <;> rfl
  have room : (a / b).natAbs < integerLimit := by
    rw [Int.natAbs_ediv_of_dvd divides]
    exact Nat.lt_of_le_of_lt (Nat.div_le_self _ _) aWithin
  refine ⟨.double d, Number.nearestDouble (a / b), valued, ?_, ?_,
    Number.nearestDouble_eq_self_iff _, Number.nearestDouble_near _⟩
  · rw [ofNumber_of_toInt integral]
    exact isNumeralOf_of_isReadable
      (Literal.isReadable_of_lt (Number.natAbs_nearestDouble_lt room))
  · refine Attempt.bind_eq_ok.mpr ⟨_, rfl, ?_⟩
    rw [closed, calculable, valued, ← Number.text_of_toInt integral]
    rfl

/-- Twelve over minus four. -/
theorem calculation_of_twelve_over_minus_four :
    ((4 : Int) ∣ 12 ∧ Denotes 12 (const "12") ∧ Denotes (-4) (unary "-" (const "4"))) ∧
    ∃ result n, (binary "/" (const "12") (unary "-" (const "4"))).value = .ok (some result) ∧
      IsNumeralOf n (ofNumber result) ∧ n = -3 := by
  have above : Denotes 12 (const "12") := .constant (by decide +kernel)
  have below : Denotes (-4) (unary "-" (const "4")) := .negated (by decide +kernel)
  have limit : 12 < integerLimit := by
    delta Double.integerLimit
    decide +kernel
  obtain ⟨result, n, valued, numeral, _, true_line, _⟩ :=
    calculation_of_exact_quotient above below (by decide) (by decide) limit (by omega)
  have small : Double.Representable (12 / -4 : Int).natAbs :=
    Double.representable_of_le (by decide)
  exact ⟨⟨by decide, above, below⟩, result, n, valued, numeral, true_line.mpr small⟩

/-- The quotient is one more than a power of two that has as many bits as a double keeps. -/
theorem quotient_off_by_one :
    (27021597764222979 : Int) = 3 * 9007199254740993 ∧
    (binary "/" (const "27021597764222979") (const "3")).calculation .root =
      .ok (equation (binary "/" (const "27021597764222979") (const "3"))
        (const "9007199254740992"), "Calculate 27021597764222979 / 3 = 9007199254740992") := by
  decide +kernel

end Expr

end Stepwise
