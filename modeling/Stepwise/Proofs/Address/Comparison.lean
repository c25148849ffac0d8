import Mathlib.Data.List.Lex
import Mathlib.Data.Prod.Lex
import Stepwise.Address

/-!
Comparing addresses. One comes before another if its path does, or on the same path its pair; an
unset pair ranks as -1, so that it cannot be told in order from the pair -1. Apart from that clash
the order is total, and the comparisons made from it and from equality agree with it. An address
comes before everything below it, and what lies below an earlier child before what lies below a
later one.
-/

namespace Stepwise.Address

theorem pathBefore_self (path : List Int) : pathBefore path path = false := by
  induction path with
  | nil => rfl
  | cons index path ih => simp [pathBefore, ih]

theorem pathBefore_append (base left right : List Int) :
    pathBefore (base ++ left) (base ++ right) = pathBefore left right := by
  induction base with
  | nil => rfl
  | cons index base ih => simp [pathBefore, ih]

theorem not_before_self (a : Address) : a.before a = false := by
  simp [before, pathBefore_self]

section

variable (base : List Int)

theorem before_below (pair other : Option Int) (index : Int) (path : List Int) :
    before ⟨base, pair⟩ ⟨base ++ index :: path, other⟩ = true := by
  have shorter := pathBefore_append base [] (index :: path)
  rw [List.append_nil] at shorter
  simp [before, shorter, pathBefore]

theorem before_sibling {i j : Int} (less : i < j) (left right : List Int)
    (pair other : Option Int) :
    before ⟨base ++ i :: left, pair⟩ ⟨base ++ j :: right, other⟩ = true := by
  simp [before, pathBefore_append, pathBefore, less]

theorem before_pair (index : Nat) : before ⟨base, none⟩ ⟨base, some (index : Int)⟩ = true := by
  have unset : (-1 : Int) < index := by omega
  simp [before, pathBefore_self, pairRank, unset]

theorem before_later_pair {i j : Int} (less : i < j) :
    before ⟨base, some i⟩ ⟨base, some j⟩ = true := by
  simp [before, pathBefore_self, pairRank, less]

end

def key (a : Address) : List Int ×ₗ Int := toLex (a.path, a.pairRank)

/-- On one path, the one has no pair and the other the pair that ranks like none. -/
def Clashes (a b : Address) : Prop :=
  a.path = b.path ∧ (a.pair = none ∧ b.pair = some (-1) ∨ a.pair = some (-1) ∧ b.pair = none)

instance (a b : Address) : Decidable (a.Clashes b) := inferInstanceAs (Decidable (_ ∧ _))

theorem pathBefore_iff (p q : List Int) : pathBefore p q = true ↔ p < q := by
  induction p generalizing q with
  | nil => cases q <;> simp [pathBefore]
  | cons i p ih =>
      cases q with
      | nil => simp [pathBefore]
      | cons j q => simp [pathBefore, List.cons_lt_cons_iff, ih]

theorem before_iff (a b : Address) : a.before b = true ↔ a.key < b.key := by
  simp [before, key, Prod.Lex.toLex_lt_toLex, pathBefore_iff]

theorem pairRank_eq_iff (pair other : Option Int) :
    pair.getD (-1) = other.getD (-1) ↔
      pair = other ∨ pair = none ∧ other = some (-1) ∨ pair = some (-1) ∧ other = none := by
  cases pair <;> cases other <;> simp [eq_comm]

theorem key_eq_iff (a b : Address) : a.key = b.key ↔ a = b ∨ a.Clashes b := by
  obtain ⟨path, pair⟩ := a
  obtain ⟨otherPath, other⟩ := b
  simp only [key, pairRank, Clashes, toLex_inj, Prod.mk.injEq, mk.injEq, pairRank_eq_iff]
  exact and_or_left

theorem Clashes.ne {a b : Address} (clash : a.Clashes b) : a ≠ b := by
  rintro rfl
  obtain ⟨_, ⟨unset, set⟩ | ⟨set, unset⟩⟩ := clash
  all_goals simp [unset] at set

theorem Clashes.not_before {a b : Address} (clash : a.Clashes b) :
    a.before b = false ∧ b.before a = false := by
  have same : a.key = b.key := (key_eq_iff a b).mpr (Or.inr clash)
  constructor
  all_goals
    rw [Bool.eq_false_iff, ne_eq, before_iff, same]
    exact lt_irrefl _

theorem before_trans {a b c : Address} (first : a.before b = true) (second : b.before c = true) :
    a.before c = true := by
  rw [before_iff] at first second ⊢
  exact lt_trans first second

theorem before_asymm {a b : Address} (less : a.before b = true) : b.before a = false := by
  rw [Bool.eq_false_iff, ne_eq, before_iff]
  exact lt_asymm ((before_iff a b).mp less)

theorem ne_of_before {a b : Address} (less : a.before b = true) : a ≠ b := by
  rintro rfl
  simp [not_before_self] at less

theorem before_total {a b : Address} (apart : ¬a.Clashes b) :
    a.before b = true ∨ a = b ∨ b.before a = true := by
  rcases lt_trichotomy a.key b.key with less | same | more
  · exact Or.inl ((before_iff a b).mpr less)
  · exact Or.inr (Or.inl (((key_eq_iff a b).mp same).resolve_right apart))
  · exact Or.inr (Or.inr ((before_iff b a).mpr more))

def ExactlyOne (p q r : Prop) : Prop := (p ∨ q ∨ r) ∧ ¬(p ∧ q) ∧ ¬(p ∧ r) ∧ ¬(q ∧ r)

theorem exactlyOne_iff (a b : Address) :
    ExactlyOne (a.before b = true) (a = b) (b.before a = true) ↔ ¬a.Clashes b := by
  constructor
  · rintro ⟨less | same | more, _⟩ clash
    · simp [clash.not_before.1] at less
    · exact clash.ne same
    · simp [clash.not_before.2] at more
  · intro apart
    refine ⟨before_total apart, ?_, ?_, ?_⟩
    · exact fun ⟨less, same⟩ => ne_of_before less same
    · exact fun ⟨less, more⟩ => by simp [before_asymm less] at more
    · exact fun ⟨same, more⟩ => ne_of_before more same.symm

theorem unset_before_iff (path : List Int) (pair : Int) :
    before ⟨path, none⟩ ⟨path, some pair⟩ = true ↔ 0 ≤ pair := by
  have lower : -1 < pair ↔ 0 ≤ pair := by omega
  simpa [before_iff, key, pairRank, Prod.Lex.toLex_lt_toLex] using lower

theorem after_iff (a b : Address) :
    (a.after b = true ↔ b.before a = true) ↔ ¬a.Clashes b := by
  constructor
  · intro agree clash
    have notLess := clash.not_before
    simp [after, notLess.1, notLess.2, clash.ne] at agree
  · intro apart
    rw [after, Bool.and_eq_true, Bool.not_eq_true', decide_eq_true_iff]
    constructor
    · rintro ⟨notLess, differ⟩
      rcases before_total apart with less | same | more
      · simp [notLess] at less
      · exact absurd same differ
      · exact more
    · exact fun more => ⟨before_asymm more, (ne_of_before more).symm⟩

theorem atLeast_iff (a b : Address) :
    (a.atLeast b = true ↔ b.atMost a = true) ↔ ¬a.Clashes b := by
  constructor
  · intro agree clash
    have notLess := clash.not_before
    simp [atLeast, atMost, notLess.1, notLess.2, clash.ne.symm] at agree
  · intro apart
    rw [atLeast, atMost, Bool.not_eq_true', Bool.or_eq_true, decide_eq_true_iff]
    constructor
    · intro notLess
      rcases before_total apart with less | same | more
      · simp [notLess] at less
      · exact Or.inr same.symm
      · exact Or.inl more
    · rintro (more | rfl)
      · exact before_asymm more
      · exact not_before_self _

/-- The order is strict and transitive; it is total, and the other comparisons agree with it,
exactly for addresses that do not clash. An unset pair comes first among those that are not
negative. -/
theorem order_laws (a b c : Address) :
    (ExactlyOne (a.before b = true) (a = b) (b.before a = true) ↔ ¬a.Clashes b) ∧
      (a.before b = true → b.before c = true → a.before c = true) ∧
      (∀ pair : Int, before ⟨a.path, none⟩ ⟨a.path, some pair⟩ = true ↔ 0 ≤ pair) ∧
      (a.atMost b = true ↔ a.before b = true ∨ a = b) ∧
      ((a.after b = true ↔ b.before a = true) ↔ ¬a.Clashes b) ∧
      ((a.atLeast b = true ↔ b.atMost a = true) ↔ ¬a.Clashes b) :=
  ⟨exactlyOne_iff a b, before_trans, unset_before_iff a.path, by simp [atMost], after_iff a b,
    atLeast_iff a b⟩

/-- A node comes before its pairs, and these come before what is below it. -/
theorem order_laws_below :
    before ⟨[0], none⟩ ⟨[0], some 1⟩ = true ∧ before ⟨[0], some 1⟩ ⟨[0, 2], none⟩ = true ∧
      before ⟨[0], none⟩ ⟨[0, 2], none⟩ = true := by
  have first : before ⟨[0], none⟩ ⟨[0], some 1⟩ = true := by decide
  have second : before ⟨[0], some 1⟩ ⟨[0, 2], none⟩ = true := by decide
  exact ⟨first, second, (order_laws _ _ _).2.1 first second⟩

/-- The root and the pair -1 at the root are told apart, but none of the two comes first, and each
comes after the other. -/
theorem root_clashes :
    read "." = .ok ⟨[], none⟩ ∧ read ".:-1" = .ok ⟨[], some (-1)⟩ ∧
      ¬ExactlyOne (before ⟨[], none⟩ ⟨[], some (-1)⟩ = true)
        ((⟨[], none⟩ : Address) = ⟨[], some (-1)⟩) (before ⟨[], some (-1)⟩ ⟨[], none⟩ = true) ∧
      after ⟨[], none⟩ ⟨[], some (-1)⟩ = true ∧ after ⟨[], some (-1)⟩ ⟨[], none⟩ = true := by
  refine ⟨by decide +kernel, by decide +kernel, ?_, by decide, by decide⟩
  rintro ⟨less | same | more, _⟩
  · exact absurd less (by decide)
  · exact absurd same (by decide)
  · exact absurd more (by decide)

end Stepwise.Address
