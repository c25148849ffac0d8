import Mathlib.Algebra.Group.Nat.Defs
import Mathlib.Data.Nat.Basic
import Stepwise.Number.Double

/-!
Rounding to the double format. The rounded quotient is the multiple of a power of two next to the
exact one; a number of at most 53 significant bits is its own rounding, and the quotients that are
rounded to a finite number are those below a limit half a unit under the first power out of range.
-/

namespace Stepwise.Double

theorem roundQuotient_mul (k : Nat) {den : Nat} (positive : 0 < den) :
    roundQuotient (k * den) den = k := by
  simp [roundQuotient, Nat.mul_div_cancel k positive, positive]

theorem roundQuotient_mul_right (num den : Nat) {scale : Nat} (positive : 0 < scale) :
    roundQuotient (num * scale) (den * scale) = roundQuotient num den := by
  have twice : 2 * (num * scale % (den * scale)) = 2 * (num % den) * scale := by
    rw [Nat.mul_mod_mul_right, Nat.mul_assoc]
  simp only [roundQuotient, twice, Nat.mul_div_mul_right _ _ positive,
    Nat.mul_lt_mul_right positive]

theorem div_le_roundQuotient (num den : Nat) : num / den ≤ roundQuotient num den := by
  unfold roundQuotient
  dsimp only
  split
  · omega
  · split <;> omega

theorem roundQuotient_le (num den : Nat) : roundQuotient num den ≤ num / den + 1 := by
  unfold roundQuotient
  dsimp only
  split
  · omega
  · split <;> omega

theorem roundQuotient_near (num : Nat) {den : Nat} (positive : 0 < den) :
    2 * (roundQuotient num den * den) ≤ 2 * num + den ∧
      2 * num ≤ 2 * (roundQuotient num den * den) + den := by
  have exact := Nat.div_add_mod num den
  have rest := Nat.mod_lt num positive
  rw [Nat.mul_comm] at exact
  unfold roundQuotient
  dsimp only
  split
  · omega
  · split
    · rw [Nat.add_mul]
      omega
    · rcases Nat.mod_two_eq_zero_or_one (num / den) with even | odd
      · rw [even, Nat.add_zero]
        omega
      · rw [odd, Nat.add_mul]
        omega

theorem roundQuotient_lt_iff {num den k : Nat} (positive : 0 < den) (even : k % 2 = 0) :
    roundQuotient num den < k ↔ 2 * num + den < 2 * (k * den) := by
  have exact := Nat.div_add_mod num den
  have rest := Nat.mod_lt num positive
  rw [Nat.mul_comm] at exact
  have below := div_le_roundQuotient num den
  have above := roundQuotient_le num den
  rcases Nat.lt_trichotomy (num / den + 1) k with less | same | more
  · have room : (num / den + 2) * den ≤ k * den := Nat.mul_le_mul_right den less
    rw [Nat.add_mul] at room
    exact ⟨fun _ => by omega, fun _ => by omega⟩
  · have odd : num / den % 2 = 1 := by omega
    subst same
    unfold roundQuotient
    dsimp only
    rw [odd, Nat.add_mul]
    split
    · exact ⟨fun _ => by omega, fun _ => by omega⟩
    · split
      · exact ⟨fun _ => by omega, fun _ => by omega⟩
      · exact ⟨fun _ => by omega, fun _ => by omega⟩
  · have room : k * den ≤ num / den * den := Nat.mul_le_mul_right den (by omega)
    exact ⟨fun _ => by omega, fun _ => by omega⟩

/-- The number has no more significant bits than the format keeps. -/
def Representable (n : Nat) : Prop := ∃ bits place, bits < 2 ^ significantBits ∧ n = bits * 2 ^ place

theorem representable_of_le {n : Nat} (small : n ≤ 2 ^ significantBits) : Representable n := by
  rcases Nat.lt_or_eq_of_le small with less | rfl
  · exact ⟨n, 0, less, by simp⟩
  · exact ⟨1, significantBits, by decide, by simp⟩

def excess (num den : Nat) : Nat := (num / den).log2 + 1 - significantBits

theorem roundSignificant_eq (num den : Nat) :
    roundSignificant num den =
      roundQuotient num (den * 2 ^ excess num den) * 2 ^ excess num den := rfl

theorem div_lt_two_pow (num den : Nat) : num / den < 2 ^ (significantBits + excess num den) :=
  Nat.lt_of_lt_of_le Nat.lt_log2_self
    (Nat.pow_le_pow_right (by decide) (by unfold excess; omega))

theorem two_pow_le_div {num den : Nat} (rounds : 0 < excess num den) :
    2 ^ (significantBits - 1 + excess num den) ≤ num / den := by
  have place : significantBits - 1 + excess num den = (num / den).log2 := by
    unfold excess at rounds ⊢
    have : 1 ≤ significantBits := by decide
    omega
  have nonzero : num / den ≠ 0 := by
    intro zero
    rw [excess, zero] at rounds
    simp [significantBits] at rounds
  rw [place]
  exact Nat.log2_self_le nonzero

theorem roundQuotient_excess_le (num den : Nat) :
    roundQuotient num (den * 2 ^ excess num den) ≤ 2 ^ significantBits := by
  refine Nat.le_trans (roundQuotient_le _ _) ?_
  rw [← Nat.div_div_eq_div_mul]
  have less : num / den / 2 ^ excess num den < 2 ^ significantBits := by
    rw [Nat.div_lt_iff_lt_mul (Nat.two_pow_pos _), ← Nat.pow_add]
    exact div_lt_two_pow num den
  omega

theorem representable_roundSignificant (num den : Nat) : Representable (roundSignificant num den) := by
  obtain ⟨bits, place, less, same⟩ :=
    representable_of_le (roundQuotient_excess_le num den)
  refine ⟨bits, place + excess num den, less, ?_⟩
  rw [roundSignificant_eq, same, Nat.mul_assoc, ← Nat.pow_add]

theorem roundSignificant_mul (m : Nat) {den : Nat} (positive : 0 < den) :
    roundSignificant (m * den) den = roundSignificant m 1 := by
  have same : excess (m * den) den = excess m 1 := by
    simp [excess, Nat.mul_div_cancel m positive]
  rw [roundSignificant_eq, roundSignificant_eq, same, Nat.mul_comm den,
    roundQuotient_mul_right _ _ positive, Nat.one_mul]

theorem two_pow_excess_dvd {m : Nat} (representable : Representable m) : 2 ^ excess m 1 ∣ m := by
  obtain ⟨bits, place, less, rfl⟩ := representable
  refine Nat.dvd_trans (Nat.pow_dvd_pow 2 ?_) (Nat.dvd_mul_left _ _)
  rcases Nat.eq_zero_or_pos (bits * 2 ^ place) with zero | positive
  · simp [excess, zero, significantBits]
  · have bound : (bits * 2 ^ place).log2 < significantBits + place := by
      rw [Nat.log2_lt (by omega), Nat.pow_add]
      exact Nat.mul_lt_mul_of_pos_right less (Nat.two_pow_pos _)
    unfold excess
    rw [Nat.div_one]
    omega

theorem roundSignificant_eq_self_iff (m : Nat) : roundSignificant m 1 = m ↔ Representable m := by
  constructor
  · intro same
    exact same ▸ representable_roundSignificant m 1
  · intro representable
    obtain ⟨k, same⟩ := two_pow_excess_dvd representable
    rw [roundSignificant_eq, Nat.one_mul]
    generalize 2 ^ excess m 1 = unit at same ⊢
    rcases Nat.eq_zero_or_pos unit with rfl | positive
    · omega
    · rw [same, Nat.mul_comm unit, roundQuotient_mul k positive]

theorem excess_scaled {m : Nat} (rounds : 0 < excess m 1) (place : Nat) :
    excess (m * 2 ^ place) 1 = excess m 1 + place := by
  have nonzero : m ≠ 0 := by
    rintro rfl
    simp [excess, significantBits] at rounds
  have scaled : (m * 2 ^ place).log2 = m.log2 + place := by
    have positive := Nat.mul_pos (Nat.pos_of_ne_zero nonzero) (Nat.two_pow_pos place)
    rw [Nat.log2_eq_iff (Nat.ne_of_gt positive), Nat.pow_add, Nat.add_right_comm, Nat.pow_add]
    exact ⟨Nat.mul_le_mul_right _ (Nat.log2_self_le nonzero),
      Nat.mul_lt_mul_of_pos_right Nat.lt_log2_self (Nat.two_pow_pos _)⟩
  unfold excess at rounds ⊢
  simp only [Nat.div_one] at rounds ⊢
  omega

theorem roundSignificant_scaled (m place : Nat) :
    roundSignificant (m * 2 ^ place) 1 = roundSignificant m 1 * 2 ^ place := by
  rcases Nat.eq_zero_or_pos (excess m 1) with none | rounds
  · have small := div_lt_two_pow m 1
    rw [none, Nat.div_one, Nat.add_zero] at small
    rw [(roundSignificant_eq_self_iff m).mpr ⟨m, 0, small, by simp⟩]
    exact (roundSignificant_eq_self_iff _).mpr ⟨m, place, small, rfl⟩
  · rw [roundSignificant_eq, roundSignificant_eq, excess_scaled rounds, Nat.pow_add,
      ← Nat.mul_assoc 1, roundQuotient_mul_right _ _ (Nat.two_pow_pos place), Nat.mul_assoc]

theorem roundSignificant_near (m : Nat) :
    2 ^ significantBits * roundSignificant m 1 ≤ 2 ^ significantBits * m + m ∧
      2 ^ significantBits * m ≤ 2 ^ significantBits * roundSignificant m 1 + m := by
  rcases Nat.eq_zero_or_pos (excess m 1) with none | rounds
  · have same : roundSignificant m 1 = m := by
      rw [roundSignificant_eq, none, Nat.pow_zero, Nat.mul_one, Nat.mul_one]
      simpa using roundQuotient_mul m Nat.one_pos
    rw [same]
    omega
  · have near := roundQuotient_near m (Nat.two_pow_pos (excess m 1))
    have large := two_pow_le_div rounds
    rw [Nat.div_one, Nat.pow_add] at large
    rw [roundSignificant_eq, Nat.one_mul]
    generalize roundQuotient m (2 ^ excess m 1) * 2 ^ excess m 1 = rounded at near ⊢
    generalize 2 ^ excess m 1 = unit at near large
    simp only [significantBits] at large ⊢
    omega

/-! The range of the finite numbers. -/

theorem significantBits_pos : 1 ≤ significantBits := by decide

theorem two_pow_le_roundSignificant {num den : Nat} (rounds : 0 < excess num den) :
    2 ^ (significantBits - 1 + excess num den) ≤ roundSignificant num den := by
  have large := two_pow_le_div rounds
  rw [Nat.pow_add, ← Nat.le_div_iff_mul_le (Nat.two_pow_pos _), Nat.div_div_eq_div_mul] at large
  rw [roundSignificant_eq, Nat.pow_add]
  exact Nat.mul_le_mul_right _ (Nat.le_trans large (div_le_roundQuotient _ _))

theorem roundSignificant_le (num den : Nat) :
    roundSignificant num den ≤ 2 ^ (significantBits + excess num den) := by
  rw [roundSignificant_eq, Nat.pow_add]
  exact Nat.mul_le_mul_right _ (roundQuotient_excess_le num den)

/-- A quotient is rounded to a number below a power of two if it is more than half a unit, in the
place of the last bit that the numbers below the power have, below it. -/
theorem roundSignificant_lt_iff (num : Nat) {den place : Nat} (positive : 0 < den) :
    roundSignificant num den < 2 ^ (significantBits + (place + 1)) ↔
      num + den * 2 ^ place < den * 2 ^ (significantBits + (place + 1)) := by
  have below := div_lt_two_pow num den
  rcases Nat.lt_trichotomy (excess num den) (place + 1) with less | same | more
  · have half : 2 ^ (significantBits + excess num den) ≤ 2 ^ (significantBits + place) :=
      Nat.pow_le_pow_right (by decide) (by omega)
    have room : num < den * 2 ^ (significantBits + place) := by
      rw [Nat.mul_comm]
      exact (Nat.div_lt_iff_lt_mul positive).mp (Nat.lt_of_lt_of_le below half)
    have unit : den * 2 ^ place ≤ den * 2 ^ (significantBits + place) :=
      Nat.mul_le_mul_left _ (Nat.pow_le_pow_right (by decide) (by omega))
    have small := roundSignificant_le num den
    have power := Nat.two_pow_pos (significantBits + place)
    rw [← Nat.add_assoc, Nat.pow_succ, ← Nat.mul_assoc]
    exact ⟨fun _ => by omega, fun _ => by omega⟩
  · have even : 2 ^ significantBits % 2 = 0 := by decide
    have twice : den * 2 ^ (place + 1) = 2 * (den * 2 ^ place) := by
      rw [Nat.pow_succ, ← Nat.mul_assoc, Nat.mul_comm]
    rw [roundSignificant_eq, same, Nat.pow_add 2 significantBits (place + 1),
      Nat.mul_lt_mul_right (Nat.two_pow_pos _),
      roundQuotient_lt_iff (Nat.mul_pos positive (Nat.two_pow_pos _)) even,
      Nat.mul_left_comm _ den, twice]
    omega
  · have large : 2 ^ (significantBits - 1 + excess num den) ≤ roundSignificant num den :=
      two_pow_le_roundSignificant (by omega)
    have top : 2 ^ (significantBits + (place + 1)) ≤
        2 ^ (significantBits - 1 + excess num den) :=
      Nat.pow_le_pow_right (by decide) (by have := significantBits_pos; omega)
    have far : den * 2 ^ (significantBits + (place + 1)) ≤ num := by
      rw [Nat.mul_comm, ← Nat.le_div_iff_mul_le positive]
      exact Nat.le_trans top (two_pow_le_div (by omega))
    exact ⟨fun _ => by omega, fun _ => by omega⟩

theorem roundSignificant_scaled_lt_iff (num place unit : Nat) {den : Nat} (positive : 0 < den) :
    roundSignificant (num * 2 ^ unit) den < 2 ^ (significantBits + (place + unit + 1)) ↔
      num < (2 ^ (significantBits + (place + 1)) - 2 ^ place) * den := by
  have top : 2 ^ (significantBits + (place + unit + 1)) =
      2 ^ (significantBits + (place + 1)) * 2 ^ unit := by
    rw [← Nat.pow_add]
    congr 1
    omega
  rw [roundSignificant_lt_iff _ positive, top, Nat.pow_add 2 place unit, Nat.sub_mul,
    ← Nat.mul_assoc, ← Nat.mul_assoc, ← Nat.add_mul, Nat.mul_lt_mul_right (Nat.two_pow_pos _),
    Nat.mul_comm den, Nat.mul_comm den]
  exact Nat.lt_sub_iff_add_lt.symm

/-- Integers of at least this magnitude are out of the range of the format. -/
@[irreducible] def integerLimit : Nat := 2 ^ (significantBits + (970 + 1)) - 2 ^ 970

theorem one_lt_integerLimit : 1 < integerLimit := by
  delta integerLimit
  decide +kernel

theorem unitsInOne_eq : unitsInOne = 2 ^ 1074 := by decide +kernel

theorem overflowMagnitude_eq :
    overflowMagnitude = 2 ^ (significantBits + (970 + 1074 + 1)) := by decide +kernel

theorem units_lt_iff (num : Nat) {den : Nat} (positive : 0 < den) :
    roundSignificant (num * unitsInOne) den < overflowMagnitude ↔ num < integerLimit * den := by
  rewrite [overflowMagnitude_eq, unitsInOne_eq]
  delta integerLimit
  exact roundSignificant_scaled_lt_iff num 970 1074 positive

theorem ofRatio_eq (negative : Bool) (num : Nat) {den : Nat} (positive : 0 < den) :
    ofRatio negative num den =
      if num < integerLimit * den then finite negative (roundSignificant (num * unitsInOne) den)
      else infinite negative := by
  rw [ofRatio, ofUnits, ofMagnitude]
  simp only [units_lt_iff num positive]

theorem unitsInOne_pos : 0 < unitsInOne := by decide +kernel

theorem roundSignificant_units (m : Nat) :
    roundSignificant (m * unitsInOne) 1 = roundSignificant m 1 * unitsInOne := by
  rewrite [unitsInOne_eq]
  exact roundSignificant_scaled m 1074

theorem ofRatio_of_dvd (negative : Bool) {den q : Nat} (positive : 0 < den)
    (within : q < integerLimit) :
    ofRatio negative (q * den) den =
      finite negative (roundSignificant q 1 * unitsInOne) := by
  have room : q * den < integerLimit * den := Nat.mul_lt_mul_of_pos_right within positive
  rw [ofRatio_eq _ _ positive, if_pos room, Nat.mul_right_comm, roundSignificant_mul _ positive,
    roundSignificant_units]

theorem toInt?_finite (negative : Bool) (m : Nat) :
    (finite negative (m * unitsInOne)).toInt? = some (signed negative m) := by
  rw [toInt?, Nat.mul_mod_left, if_pos rfl, Nat.mul_div_cancel m unitsInOne_pos]

theorem ofInt_eq (n : Int) :
    ofInt n = if n.natAbs < integerLimit then
      finite (n < 0) (roundSignificant (n.natAbs * unitsInOne) 1) else infinite (n < 0) := by
  rw [ofInt, ofRatio_eq _ _ Nat.one_pos, Nat.mul_one]

end Stepwise.Double
