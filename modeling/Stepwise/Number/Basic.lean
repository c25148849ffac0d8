import Stepwise.Number.Literal
import Stepwise.Number.Written

/-!
Numbers of unbounded integer or of double type. An operation on two integers is exact, except
that their quotient is the nearest double; otherwise an integer operand is first converted to the
nearest double, which fails outside the range.
-/

namespace Stepwise

inductive OverflowFault
  | integerTooLarge
  | quotientTooLarge
  deriving DecidableEq

def OverflowFault.message : OverflowFault → String
  | integerTooLarge => "int too large to convert to float"
  | quotientTooLarge => "integer division result too large for a float"

def OverflowFault.unlessInfinite (fault : OverflowFault) : Double → Except OverflowFault Double
  | .infinite _ => .error fault
  | rounded => .ok rounded

inductive Number
  | int (value : Int)
  | double (value : Double)
  deriving DecidableEq

namespace Number

def read (symbol : String) : Option Number :=
  match Literal.readInt symbol with
  | .ok value => some (int value)
  | .error _ =>
      match Literal.readDouble symbol with
      | some value => if value.isFinite then some (double value) else none
      | none => none

def toDouble : Number → Except OverflowFault Double
  | int value => OverflowFault.integerTooLarge.unlessInfinite (Double.ofInt value)
  | double value => .ok value

def isFinite (n : Number) : Except OverflowFault Bool := n.toDouble.map Double.isFinite

def isZero : Number → Bool
  | int value => value = 0
  | double value => value.isZero

def isNegative : Number → Bool
  | int value => value < 0
  | double value => value.isNegative

def equalsInt (n : Int) : Number → Bool
  | int value => value = n
  | double value => value.toInt? = some n

def neg : Number → Number
  | int value => int (-value)
  | double value => double value.neg

/-- Applies `exact` to two integers and `rounded` to two numbers of which one is a double. -/
def combine (exact : Int → Int → Int) (rounded : Double → Double → Double) :
    Number → Number → Except OverflowFault Number
  | int a, int b => .ok (int (exact a b))
  | a, b => do
      let x ← a.toDouble
      let y ← b.toDouble
      return double (rounded x y)

def add : Number → Number → Except OverflowFault Number := combine (· + ·) Double.add

def sub : Number → Number → Except OverflowFault Number := combine (· - ·) Double.sub

def mul : Number → Number → Except OverflowFault Number := combine (· * ·) Double.mul

def div : Number → Number → Except OverflowFault Number
  | int a, int b =>
      (OverflowFault.quotientTooLarge.unlessInfinite
        (Double.ofRatio ((a < 0) != (b < 0)) a.natAbs b.natAbs)).map double
  | a, b => do
      let x ← a.toDouble
      let y ← b.toDouble
      return double (x.div y)

def text : Number → String
  | int value => toString value
  | double value =>
      match value.toInt? with
      | some n => toString n
      | none => value.text

end Number

end Stepwise
