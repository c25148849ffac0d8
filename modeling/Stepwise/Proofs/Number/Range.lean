import Stepwise.Number.Basic
import Stepwise.Proofs.Number.Rounding

/-!
The range of the double format under the operations on numbers. An operation breaks off exactly
when it has to convert an integer beyond the range, or when the quotient of two integers is beyond
it.
-/

namespace Stepwise.Number

def isInteger : Number → Bool
  | int _ => true
  | double _ => false

def IsBeyond : Number → Prop
  | int n => Double.integerLimit ≤ n.natAbs
  | double _ => False

instance : DecidablePred IsBeyond
  | int n => inferInstanceAs (Decidable (Double.integerLimit ≤ n.natAbs))
  | double _ => inferInstanceAs (Decidable False)

/-- A double meets an integer beyond the range. -/
def Clashes (a b : Number) : Prop := a.isInteger ≠ b.isInteger ∧ (a.IsBeyond ∨ b.IsBeyond)

theorem toDouble_int (n : Int) :
    (int n).toDouble =
      if Double.integerLimit ≤ n.natAbs then .error .integerTooLarge else .ok (Double.ofInt n) := by
  rw [toDouble, Double.ofInt_eq]
  by_cases beyond : Double.integerLimit ≤ n.natAbs
  · rw [if_neg (Nat.not_lt.mpr beyond), if_pos beyond]
    rfl
  · rw [if_pos (Nat.not_le.mp beyond), if_neg beyond]
    rfl

theorem isFinite_int (n : Int) :
    (int n).isFinite =
      if Double.integerLimit ≤ n.natAbs then .error .integerTooLarge else .ok true := by
  rw [isFinite, toDouble_int]
  split
  · rfl
  · rename_i within
    rw [Double.ofInt_eq, if_pos (Nat.not_le.mp within)]
    rfl

theorem isFinite_int_of_lt {n : Int} (within : n.natAbs < Double.integerLimit) :
    (int n).isFinite = .ok true := by
  rw [isFinite_int, if_neg (Nat.not_le.mpr within)]

theorem isFinite_int_ne_false (n : Int) : (int n).isFinite ≠ .ok false := by
  rw [isFinite_int]
  split <;> simp

theorem isFinite_double (d : Double) : (double d).isFinite = .ok d.isFinite := rfl

theorem isFinite_eq_error_iff (n : Number) (fault : OverflowFault) :
    n.isFinite = .error fault ↔ n.IsBeyond ∧ fault = .integerTooLarge := by
  cases n with
  | int n =>
      rw [isFinite_int]
      by_cases beyond : Double.integerLimit ≤ n.natAbs
      · simp [IsBeyond, beyond, eq_comm]
      · simp [IsBeyond, beyond]
  | double d => simp [isFinite_double, IsBeyond]

theorem lt_of_isFinite {n : Int} (finite : (int n).isFinite = .ok true) :
    n.natAbs < Double.integerLimit := by
  rw [← Nat.not_le]
  intro beyond
  rw [isFinite_int, if_pos beyond] at finite
  simp at finite

theorem toDouble_eq_error_iff (n : Number) (fault : OverflowFault) :
    n.toDouble = .error fault ↔ n.IsBeyond ∧ fault = .integerTooLarge := by
  rw [← isFinite_eq_error_iff, isFinite]
  cases n.toDouble with
  | error cause => simp [Except.map]
  | ok converted => simp [Except.map]

section

variable {exact : Int → Int → Int} {rounded : Double → Double → Double}

theorem combine_int (a b : Int) :
    combine exact rounded (int a) (int b) = .ok (int (exact a b)) := rfl

theorem rounded_eq_error_iff {a b : Number} (mixed : ¬(a.isInteger = true ∧ b.isInteger = true))
    (next : Double → Double → Number) (fault : OverflowFault) :
    (do let x ← a.toDouble; let y ← b.toDouble; return next x y : Except OverflowFault Number) =
        .error fault ↔ a.Clashes b ∧ fault = .integerTooLarge := by
  cases a with
  | int m =>
      cases b with
      | int n => simp [isInteger] at mixed
      | double y =>
          have read : (double y).toDouble = .ok y := rfl
          have converted := toDouble_eq_error_iff (int m) fault
          rw [read]
          simp only [Clashes, isInteger, IsBeyond, or_false, ne_eq, reduceCtorEq,
            not_false_eq_true, true_and] at converted ⊢
          rw [← converted]
          cases (int m).toDouble <;> simp [bind, Except.bind, pure, Except.pure]
  | double x =>
      have converted := toDouble_eq_error_iff b fault
      have read : (double x).toDouble = .ok x := rfl
      rw [read]
      cases b with
      | int n =>
          simp only [Clashes, isInteger, IsBeyond, false_or, ne_eq, reduceCtorEq,
            not_false_eq_true, true_and] at converted ⊢
          rw [← converted]
          cases (int n).toDouble <;> simp [bind, Except.bind, pure, Except.pure]
      | double y => simp [Clashes, isInteger, toDouble, bind, Except.bind, pure, Except.pure]

theorem combine_eq_error_iff (a b : Number) (fault : OverflowFault) :
    combine exact rounded a b = .error fault ↔ a.Clashes b ∧ fault = .integerTooLarge := by
  cases a with
  | int m =>
      cases b with
      | int n => simp [combine_int, Clashes, isInteger]
      | double y => exact rounded_eq_error_iff (by simp [isInteger]) (fun x y => double (rounded x y)) fault
  | double x => exact rounded_eq_error_iff (by simp [isInteger]) (fun x y => double (rounded x y)) fault

end

theorem div_int (a b : Int) (nonzero : b ≠ 0) :
    (int a).div (int b) =
      if Double.integerLimit * b.natAbs ≤ a.natAbs then .error .quotientTooLarge
      else .ok (double (Double.ofRatio ((a < 0) != (b < 0)) a.natAbs b.natAbs)) := by
  have positive : 0 < b.natAbs := Int.natAbs_pos.mpr nonzero
  rw [div, Double.ofRatio_eq _ _ positive]
  by_cases beyond : Double.integerLimit * b.natAbs ≤ a.natAbs
  · rw [if_neg (Nat.not_lt.mpr beyond), if_pos beyond]
    rfl
  · rw [if_pos (Nat.not_le.mp beyond), if_neg beyond]
    rfl

theorem div_eq_error_iff (a b : Number) (nonzero : b.isZero = false) (fault : OverflowFault) :
    a.div b = .error fault ↔
      (a.Clashes b ∧ fault = .integerTooLarge) ∨
        ∃ m n, a = int m ∧ b = int n ∧ Double.integerLimit * n.natAbs ≤ m.natAbs ∧
          fault = .quotientTooLarge := by
  cases a with
  | int m =>
      cases b with
      | int n =>
          rw [div_int m n (by simpa [isZero] using nonzero)]
          by_cases beyond : Double.integerLimit * n.natAbs ≤ m.natAbs
          · simp [beyond, Clashes, isInteger, eq_comm]
          · simp [beyond, Clashes, isInteger]
      | double y =>
          have rounds : ¬((int m).isInteger = true ∧ (double y).isInteger = true) := by
            simp [isInteger]
          simp only [reduceCtorEq, false_and, and_false, exists_false, or_false]
          exact rounded_eq_error_iff rounds (fun x y => double (x.div y)) fault
  | double x =>
      have rounds : ¬((double x).isInteger = true ∧ b.isInteger = true) := by simp [isInteger]
      simp only [reduceCtorEq, false_and, exists_false, or_false]
      exact rounded_eq_error_iff rounds (fun x y => double (x.div y)) fault

end Stepwise.Number
