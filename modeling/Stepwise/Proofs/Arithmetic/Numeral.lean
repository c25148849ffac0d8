import Stepwise.Arithmetic
import Stepwise.Proofs.Number.Numeral
import Stepwise.Proofs.Number.Range

/-!
Numerals of integers as expressions, a negative one under a minus. Those of integers in the range of
the doubles are read back.
-/

namespace Stepwise

namespace Literal

theorem isReadable_of_lt {n : Nat} (small : n < 2 * Double.integerLimit) : IsReadable n := by
  have room : 2 * Double.integerLimit ≤ 10 ^ maxDigits := by
    delta Double.integerLimit
    decide +kernel
  rw [IsReadable, Nat.toString_eq_repr]
  exact (Nat.length_repr_le_iff (by decide)).mpr (Nat.lt_of_lt_of_le small room)

end Literal

namespace Expr

/-- The numeral of an integer, with a minus before it if the integer is negative. -/
inductive IsNumeralOf : Int → Expr → Prop
  | natural {n : Int} {symbol : String} (nonnegative : 0 ≤ n)
      (read : Literal.readInt symbol = .ok n) : IsNumeralOf n (const symbol)
  | negative {n : Int} {symbol : String} (below : n < 0)
      (read : Literal.readInt symbol = .ok (-n)) : IsNumeralOf n (unary "-" (const symbol))

theorem isNumeralOf_of_isReadable {n : Int} (readable : Literal.IsReadable n.natAbs) :
    IsNumeralOf n (ofNumber (.int n)) := by
  have written {m : Int} (same : m.natAbs = n.natAbs) : Literal.readInt (toString m) = .ok m :=
    Literal.readInt_toString_int (same ▸ readable)
  unfold ofNumber
  split
  · rename_i negative
    have below : n < 0 := of_decide_eq_true negative
    exact .negative below (written (by omega))
  · rename_i notNegative
    have nonnegative : 0 ≤ n := Int.not_lt.mp fun below => notNegative (decide_eq_true below)
    exact .natural nonnegative (written rfl)

theorem isNumeralOf_ofNumber {text : String} {bound n : Int}
    (read : Literal.readInt text = .ok bound) (within : n.natAbs ≤ bound.natAbs) :
    IsNumeralOf n (ofNumber (.int n)) :=
  isNumeralOf_of_isReadable (Literal.isReadable_of_readInt read within)

/-- The constant or the negated constant of an integer, whichever sign the constant has itself. -/
inductive Denotes : Int → Expr → Prop
  | constant {n : Int} {symbol : String} (read : Literal.readInt symbol = .ok n) :
      Denotes n (const symbol)
  | negated {n : Int} {symbol : String} (read : Literal.readInt symbol = .ok n) :
      Denotes (-n) (unary "-" (const symbol))

theorem IsNumeralOf.denotes {n : Int} {e : Expr} (numeral : IsNumeralOf n e) : Denotes n e := by
  cases numeral with
  | natural _ read => exact .constant read
  | negative _ read => exact Int.neg_neg n ▸ .negated read

theorem value_const {symbol : String} {n : Int} (read : Literal.readInt symbol = .ok n) :
    (const symbol).value = .ok (some (.int n)) := by
  rw [const, value, Number.read, read]

theorem finiteOnly_int {n : Int} (within : n.natAbs < Double.integerLimit) :
    finiteOnly (some (.int n)) = .ok (some (.int n)) := by
  rw [finiteOnly, Number.isFinite_int_of_lt within]
  rfl

theorem Denotes.value {n : Int} {e : Expr} (denoted : Denotes n e)
    (within : n.natAbs < Double.integerLimit) : e.value = .ok (some (.int n)) := by
  cases denoted with
  | constant read => exact value_const read
  | negated read =>
      rw [unary, Expr.value]
      · simp only [Operation.ofNode?, valueEach, value_const read, Operation.apply, Number.neg]
        exact finiteOnly_int within
      · exact Kind.noConfusion

end Expr

end Stepwise
