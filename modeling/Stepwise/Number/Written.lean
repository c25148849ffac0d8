import Stepwise.Number.Double

/-!
The text of a double: the fewest decimal digits that read back as it, in positional notation when
the leading digit stands between the fourth place after the point and the sixteenth before it, with
an exponent of at least two digits otherwise. For each count of digits the two numbers next to the
value on the grid with that many digits are tried; the first count for which one of them reads back
wins, and of two that do the nearer one, an exact tie going to the even digit.
-/

namespace Stepwise

structure Decimal where
  digits : Nat
  exponent : Int
  deriving DecidableEq

namespace Decimal

def ratio (d : Decimal) : Nat × Nat :=
  if 0 ≤ d.exponent then (d.digits * Nat.pow 10 d.exponent.toNat, 1)
  else (d.digits, Nat.pow 10 (-d.exponent).toNat)

def digitCount (n : Nat) : Nat := (Nat.toDigits 10 n).length

def leading (d : Decimal) : Int := d.exponent + digitCount d.digits - 1

/-- The nearest double. Exponents far outside the range are decided without the power. -/
def toDouble (negative : Bool) (d : Decimal) : Double :=
  if d.digits = 0 then .finite negative 0
  else if 400 < d.leading then .infinite negative
  else if d.leading < -400 then .finite negative 0
  else Double.ofRatio negative d.ratio.1 d.ratio.2

end Decimal

namespace Double

def readsBack (magnitude : Nat) (d : Decimal) : Bool :=
  d.toDouble false = finite false magnitude

def decimalExponent (num den : Nat) : Int :=
  if den ≤ num then (Decimal.digitCount (num / den) : Int) - 1
  else -(Decimal.digitCount ((den - 1) / num) : Int)

def nearestOnGrid (magnitude num den : Nat) (exponent : Int) : Option Decimal :=
  let scaled := if 0 ≤ exponent then (num, den * Nat.pow 10 exponent.toNat)
    else (num * Nat.pow 10 (-exponent).toNat, den)
  let below := scaled.1 / scaled.2
  let twice := 2 * (scaled.1 % scaled.2)
  let low : Decimal := ⟨below, exponent⟩
  let high : Decimal := ⟨below + 1, exponent⟩
  let nearer := if twice < scaled.2 || (twice = scaled.2 && below % 2 = 0) then low else high
  let other := if nearer = low then high else low
  if readsBack magnitude nearer then some nearer
  else if readsBack magnitude other then some other
  else none

def shortestFrom (magnitude num den : Nat) (leading : Int) : Nat → Nat → Decimal
  | 0, count => ⟨roundQuotient num den, leading + 1 - count⟩
  | fuel + 1, count =>
      match nearestOnGrid magnitude num den (leading + 1 - count) with
      | some found => found
      | none => shortestFrom magnitude num den leading fuel (count + 1)

def shortest (magnitude : Nat) : Decimal :=
  shortestFrom magnitude magnitude unitsInOne (decimalExponent magnitude unitsInOne) 17 1

end Double

namespace Decimal

def trimmedWith : Nat → Decimal → Decimal
  | 0, d => d
  | fuel + 1, d =>
      if d.digits ≠ 0 ∧ d.digits % 10 = 0 then trimmedWith fuel ⟨d.digits / 10, d.exponent + 1⟩
      else d

def trimmed (d : Decimal) : Decimal := trimmedWith (digitCount d.digits) d

/-- Where positional notation begins and ends, and the least width of an exponent. -/
structure Layout where
  firstPositional : Int
  lastPositional : Int
  exponentWidth : Nat

def layout : Layout := ⟨-4, 15, 2⟩

def zeros (count : Nat) : List Char := List.replicate count '0'

def positional (digits : List Char) (leading : Int) : List Char :=
  if leading < 0 then '0' :: '.' :: (zeros (-leading - 1).toNat ++ digits)
  else
    let whole := leading.toNat + 1
    let before := digits.take whole
    let after := digits.drop whole
    before ++ zeros (whole - before.length) ++ '.' :: (if after.isEmpty then ['0'] else after)

def scientific (digits : List Char) (leading : Int) : List Char :=
  let exponent := Nat.toDigits 10 leading.natAbs
  digits.take 1 ++ (if digits.length ≤ 1 then [] else '.' :: digits.drop 1) ++
    'e' :: (if leading < 0 then '-' else '+') ::
      (zeros (layout.exponentWidth - exponent.length) ++ exponent)

def text (d : Decimal) : List Char :=
  let short := d.trimmed
  let digits := Nat.toDigits 10 short.digits
  if layout.firstPositional ≤ short.leading ∧ short.leading ≤ layout.lastPositional then
    positional digits short.leading
  else scientific digits short.leading

end Decimal

namespace Double

def magnitudeText (magnitude : Nat) : List Char :=
  if magnitude = 0 then ['0', '.', '0'] else (shortest magnitude).text

def text : Double → String
  | nan => "nan"
  | infinite negative => if negative then "-inf" else "inf"
  | finite negative magnitude =>
      String.ofList (if negative then '-' :: magnitudeText magnitude else magnitudeText magnitude)

end Double

end Stepwise
