import Mathlib.Algebra.Group.Nat.Defs
import Mathlib.Data.List.Induction
import Mathlib.Data.List.TakeWhile
import Stepwise.Number.Literal

/-!
Decimal numerals of natural numbers and of integers. Different numbers have different numerals, and
a numeral is read back as its number unless it has more digits than an integer may have.
-/

namespace Stepwise.Literal

theorem toString_injective {m n : Nat} (same : toString m = toString n) : m = n := by
  have digits : Nat.toDigits 10 m = Nat.toDigits 10 n := by
    simpa [Nat.toString_eq_repr] using congrArg String.toList same
  have value := congrArg (fun cs => Nat.ofDigitChars 10 cs 0) digits
  simpa only [Nat.ofDigitChars_ten_toDigits] using value

theorem isDigit_bounds {c : Char} (digit : c.isDigit = true) : 48 ≤ c.toNat ∧ c.toNat ≤ 57 :=
  Char.isDigit_iff_toNat.mp digit

theorem digitValue?_of_isDigit {c : Char} (digit : c.isDigit = true) :
    Text.digitValue? c = some (c.toNat - 48) := by
  obtain ⟨lower, upper⟩ := isDigit_bounds digit
  have ascii : c.toNat < 0x80 := by omega
  simp [Text.digitValue?, ascii, lower, upper]

theorem isBlank_of_isDigit {c : Char} (digit : c.isDigit = true) : Text.isBlank c = false := by
  obtain ⟨lower, upper⟩ := isDigit_bounds digit
  simp [Text.isBlank, Text.inRanges, Text.blankRanges]
  omega

theorem isNumberBlank_of_isBlank {c : Char} (nonblank : Text.isBlank c = false) :
    isNumberBlank c = false := by
  simp [isNumberBlank, nonblank]

theorem trimBlanks_eq_self {cs : List Char} (nonblank : ∀ c ∈ cs, isNumberBlank c = false) :
    trimBlanks cs = cs := by
  have keep (ds : List Char) (each : ∀ c ∈ ds, isNumberBlank c = false) :
      ds.dropWhile isNumberBlank = ds := by
    cases ds with
    | nil => rfl
    | cons c rest => simp [each c (by simp)]
  rw [trimBlanks, keep cs nonblank, keep cs.reverse (by simpa using nonblank), List.reverse_reverse]

theorem splitSign_of_digits {cs : List Char} (digits : ∀ c ∈ cs, c.isDigit = true) :
    splitSign cs = (false, cs) := by
  unfold splitSign
  split
  · simp [Char.isDigit] at digits
  · simp [Char.isDigit] at digits
  · rfl

theorem takeWhile_of_digits {cs : List Char} (digits : ∀ c ∈ cs, c.isDigit = true) :
    cs.takeWhile isDigitOrUnderscore = cs := by
  have each : ∀ c ∈ cs, isDigitOrUnderscore c = true := by
    intro c member
    simp [isDigitOrUnderscore, Text.isDecimalDigit, digitValue?_of_isDigit (digits c member)]
  exact List.takeWhile_eq_self_iff.mpr each

theorem spacedDigits?_of_digits (cs : List Char) (digits : ∀ c ∈ cs, c.isDigit = true)
    (afterDigit : Bool) (started : afterDigit = true ∨ cs ≠ []) :
    spacedDigits? afterDigit cs = some (cs.map fun c => c.toNat - 48) := by
  induction cs generalizing afterDigit with
  | nil => simpa [spacedDigits?] using started
  | cons c rest ih =>
      have digit := digits c (by simp)
      have notUnderscore : c ≠ '_' := by
        rintro rfl
        simp [Char.isDigit] at digit
      rw [spacedDigits?, digitValue?_of_isDigit digit,
        ih (fun other member => digits other (by simp [member])) true (Or.inl rfl)]
      · simp
      · exact notUnderscore

theorem ofDigits_eq (cs : List Char) :
    ofDigits (cs.map fun c => c.toNat - 48) = Nat.ofDigitChars 10 cs 0 := by
  rw [ofDigits, List.foldl_map, Nat.ofDigitChars_eq_foldl]
  simp only [Nat.mul_comm 10]
  rfl

theorem toList_toString (n : Nat) : (toString n).toList = Nat.toDigits 10 n := by
  simp [Nat.toString_eq_repr]

theorem isDigit_of_mem_toString {n : Nat} {c : Char} (member : c ∈ (toString n).toList) :
    c.isDigit = true :=
  Nat.isDigit_of_mem_toDigits (by decide) (by decide) (toList_toString n ▸ member)

theorem readInt_of_splitSign {text : String} {negative : Bool} {n : Nat}
    (signed : splitSign (trimBlanks text.toList) = (negative, Nat.toDigits 10 n)) :
    readInt text =
      if maxDigits < (toString n).length then .error (.tooManyDigits (toString n).length)
      else .ok (withSign negative n) := by
  have digits : ∀ c ∈ Nat.toDigits 10 n, c.isDigit = true :=
    fun c member => Nat.isDigit_of_mem_toDigits (by decide) (by decide) member
  have length : (toString n).length = (Nat.toDigits 10 n).length := by
    rw [← String.length_toList, toList_toString]
  simp only [readInt, signed, takeWhile_of_digits digits,
    spacedDigits?_of_digits _ digits false (Or.inr Nat.toDigits_ne_nil), List.length_map,
    ofDigits_eq, Nat.ofDigitChars_ten_toDigits, length]
  simp

theorem readInt_toString (n : Nat) :
    readInt (toString n) =
      if maxDigits < (toString n).length then .error (.tooManyDigits (toString n).length)
      else .ok n := by
  have digits : ∀ c ∈ (toString n).toList, c.isDigit = true := fun c => isDigit_of_mem_toString
  have signed : splitSign (trimBlanks (toString n).toList) = (false, Nat.toDigits 10 n) := by
    have nonblank : ∀ c ∈ (toString n).toList, isNumberBlank c = false :=
      fun c member => isNumberBlank_of_isBlank (isBlank_of_isDigit (digits c member))
    rw [trimBlanks_eq_self nonblank, splitSign_of_digits digits, toList_toString]
  exact readInt_of_splitSign signed

def IsReadable (n : Nat) : Prop := (toString n).length ≤ maxDigits

instance : DecidablePred IsReadable := fun n =>
  inferInstanceAs (Decidable ((toString n).length ≤ maxDigits))

theorem readInt_of_isReadable {n : Nat} (readable : IsReadable n) :
    readInt (toString n) = .ok n := by
  rw [readInt_toString, if_neg (Nat.not_lt.mpr readable)]

theorem eq_of_readInt_toString {n : Nat} {value : Int} (read : readInt (toString n) = .ok value) :
    value = n := by
  rw [readInt_toString] at read
  split at read
  · simp at read
  · simpa using read.symm

theorem toList_toString_negSucc (n : Nat) :
    (toString (Int.negSucc n)).toList = '-' :: Nat.toDigits 10 (n + 1) := by
  rw [Int.toString_eq_repr, Int.repr, String.toList_append, ← Nat.toString_eq_repr,
    toList_toString]
  rfl

theorem splitSign_toString_int (n : Int) :
    splitSign (toString n).toList = (decide (n < 0), Nat.toDigits 10 n.natAbs) := by
  cases n with
  | ofNat n =>
      have digits : ∀ c ∈ (toString n).toList, c.isDigit = true := fun c => isDigit_of_mem_toString
      have natural : ¬(Int.ofNat n < 0) := Int.not_lt.mpr (Int.natCast_nonneg n)
      rw [decide_eq_false natural]
      exact (splitSign_of_digits digits).trans (congrArg _ (toList_toString n))
  | negSucc n =>
      rw [toList_toString_negSucc, splitSign, decide_eq_true (Int.negSucc_lt_zero n)]
      rfl

theorem withSign_natAbs (n : Int) : withSign (decide (n < 0)) n.natAbs = n := by
  by_cases negative : n < 0
  · simp only [withSign, negative, decide_true, if_true]
    omega
  · simp only [withSign, negative, decide_false, Bool.false_eq_true, if_false]
    omega

theorem toString_int_injective {m n : Int} (same : toString m = toString n) : m = n := by
  have parts := congrArg (fun text => splitSign text.toList) same
  simp only [splitSign_toString_int, Prod.mk.injEq, decide_eq_decide] at parts
  have size : m.natAbs = n.natAbs := by
    refine toString_injective (String.toList_inj.mp ?_)
    rw [toList_toString, toList_toString, parts.2]
  have sign := parts.1
  omega

theorem toString_int_ne_nil (n : Int) : (toString n).toList ≠ [] := by
  intro empty
  have parts := splitSign_toString_int n
  rw [empty, splitSign] at parts
  · exact Nat.toDigits_ne_nil (Prod.mk.inj parts).2.symm
  · simp
  · simp

theorem of_mem_toString_int {n : Int} {c : Char} (member : c ∈ (toString n).toList) :
    c = '-' ∨ c.isDigit = true := by
  cases n with
  | ofNat n => exact Or.inr (isDigit_of_mem_toString (n := n) member)
  | negSucc n =>
      rw [toList_toString_negSucc] at member
      refine (List.mem_cons.mp member).imp_right fun inside => ?_
      exact Nat.isDigit_of_mem_toDigits (by decide) (by decide) inside

theorem isBlank_of_mem_toString_int {n : Int} {c : Char} (member : c ∈ (toString n).toList) :
    Text.isBlank c = false := by
  rcases of_mem_toString_int member with rfl | digit
  · simp [Text.isBlank, Text.inRanges, Text.blankRanges]
  · exact isBlank_of_isDigit digit

theorem readInt_toString_int {n : Int} (readable : IsReadable n.natAbs) :
    readInt (toString n) = .ok n := by
  have nonblank : ∀ c ∈ (toString n).toList, isNumberBlank c = false :=
    fun c member => isNumberBlank_of_isBlank (isBlank_of_mem_toString_int member)
  have signed : splitSign (trimBlanks (toString n).toList) =
      (decide (n < 0), Nat.toDigits 10 n.natAbs) := by
    rw [trimBlanks_eq_self nonblank, splitSign_toString_int]
  rw [readInt_of_splitSign signed, if_neg (Nat.not_lt.mpr readable), withSign_natAbs]

theorem digitValue?_lt {c : Char} {digit : Nat} (value : Text.digitValue? c = some digit) :
    digit < 10 := by
  unfold Text.digitValue? at value
  split at value
  · split at value
    · rename_i inside
      obtain rfl := Option.some.inj value
      simp only [Bool.and_eq_true, decide_eq_true_eq] at inside
      omega
    · simp at value
  · obtain ⟨start, found, rfl⟩ := Option.map_eq_some_iff.mp value
    have inside := Array.find?_some found
    simp only [Bool.and_eq_true, decide_eq_true_eq] at inside
    omega

theorem spacedDigits?_lt {cs : List Char} {afterDigit : Bool} {digits : List Nat}
    (read : spacedDigits? afterDigit cs = some digits) : ∀ digit ∈ digits, digit < 10 := by
  fun_induction spacedDigits? afterDigit cs generalizing digits with
  | case1 => simp [← Option.some.inj read]
  | case2 => simp at read
  | case3 rest ih => exact ih read
  | case4 => simp at read
  | case5 _ c rest _ value here ih =>
      obtain ⟨others, later, rfl⟩ := Option.map_eq_some_iff.mp read
      exact List.forall_mem_cons.mpr ⟨digitValue?_lt here, ih later⟩
  | case6 => simp at read

theorem ofDigits_lt {digits : List Nat} (each : ∀ digit ∈ digits, digit < 10) :
    ofDigits digits < 10 ^ digits.length := by
  induction digits using List.reverseRecOn with
  | nil => simp [ofDigits]
  | append_singleton digits last ih =>
      have before := ih fun digit member => each digit (by simp [member])
      have here := each last (by simp)
      rw [ofDigits, List.foldl_append, ← ofDigits, List.length_append, List.length_singleton,
        Nat.pow_succ]
      simp only [List.foldl_cons, List.foldl_nil]
      omega

theorem natAbs_lt_of_readInt {text : String} {value : Int} (read : readInt text = .ok value) :
    value.natAbs < 10 ^ maxDigits := by
  unfold readInt at read
  dsimp only at read
  split at read
  · simp at read
  · rename_i digits found
    split at read
    · simp at read
    · rename_i short
      split at read
      · obtain rfl := Except.ok.inj read
        have size := ofDigits_lt (spacedDigits?_lt found)
        have bound : 10 ^ digits.length ≤ 10 ^ maxDigits :=
          Nat.pow_le_pow_right (by decide) (Nat.le_of_not_lt short)
        rw [withSign]
        split <;> omega
      · simp at read

theorem isReadable_of_readInt {text : String} {value : Int} (read : readInt text = .ok value)
    {n : Nat} (below : n ≤ value.natAbs) : IsReadable n := by
  rw [IsReadable, Nat.toString_eq_repr]
  exact (Nat.length_repr_le_iff (by decide)).mpr
    (Nat.lt_of_le_of_lt below (natAbs_lt_of_readInt read))

end Stepwise.Literal
