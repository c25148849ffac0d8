/-!
Numbers in the double format. A finite number is a sign and a magnitude counted in units of the
least positive double, `2 ^ -1074`; the magnitudes that occur have at most 53 significant bits.
Every operation computes the exact result and rounds it once, to the nearest number of the format
and, of two equally near ones, to the one with an even last bit.
-/

namespace Stepwise

inductive Double
  | nan
  | infinite (negative : Bool)
  | finite (negative : Bool) (magnitude : Nat)
  deriving DecidableEq

namespace Double

def significantBits : Nat := 53

def unitsInOne : Nat := Nat.pow 2 1074

def overflowMagnitude : Nat := Nat.pow 2 2098

/-- The integer nearest to `num / den`, the even one of two. -/
def roundQuotient (num den : Nat) : Nat :=
  let below := num / den
  let twice := 2 * (num % den)
  if twice < den then below
  else if den < twice then below + 1
  else below + below % 2

def roundSignificant (num den : Nat) : Nat :=
  let excess := (num / den).log2 + 1 - significantBits
  let unit := Nat.pow 2 excess
  roundQuotient num (den * unit) * unit

def ofMagnitude (negative : Bool) (magnitude : Nat) : Double :=
  if magnitude < overflowMagnitude then finite negative magnitude else infinite negative

def ofUnits (negative : Bool) (num den : Nat) : Double :=
  ofMagnitude negative (roundSignificant num den)

def ofRatio (negative : Bool) (num den : Nat) : Double :=
  ofUnits negative (num * unitsInOne) den

def ofInt (n : Int) : Double := ofRatio (n < 0) n.natAbs 1

def isFinite : Double → Bool
  | finite _ _ => true
  | _ => false

def isZero : Double → Bool
  | finite _ magnitude => magnitude = 0
  | _ => false

def isNegative : Double → Bool
  | nan => false
  | infinite negative => negative
  | finite negative magnitude => negative && magnitude != 0

def signed (negative : Bool) (magnitude : Nat) : Int :=
  if negative then -(magnitude : Int) else magnitude

def toInt? : Double → Option Int
  | finite negative magnitude =>
      if magnitude % unitsInOne = 0 then some (signed negative (magnitude / unitsInOne)) else none
  | _ => none

def neg : Double → Double
  | nan => nan
  | infinite negative => infinite !negative
  | finite negative magnitude => finite (!negative) magnitude

def add : Double → Double → Double
  | nan, _ => nan
  | _, nan => nan
  | infinite a, infinite b => if a = b then infinite a else nan
  | infinite a, finite _ _ => infinite a
  | finite _ _, infinite b => infinite b
  | finite a m, finite b n =>
      let sum := signed a m + signed b n
      if sum = 0 then finite (a && b) 0 else ofUnits (sum < 0) sum.natAbs 1

def sub (x y : Double) : Double := x.add y.neg

def mul : Double → Double → Double
  | nan, _ => nan
  | _, nan => nan
  | infinite a, infinite b => infinite (a != b)
  | infinite a, finite b n => if n = 0 then nan else infinite (a != b)
  | finite a m, infinite b => if m = 0 then nan else infinite (a != b)
  | finite a m, finite b n => ofUnits (a != b) (m * n) unitsInOne

/-- Division; a finite number over zero is left to the caller. -/
def div : Double → Double → Double
  | nan, _ => nan
  | _, nan => nan
  | infinite _, infinite _ => nan
  | infinite a, finite b _ => infinite (a != b)
  | finite a _, infinite b => finite (a != b) 0
  | finite a m, finite b n =>
      if n = 0 then if m = 0 then nan else infinite (a != b) else ofRatio (a != b) m n

end Double

end Stepwise
