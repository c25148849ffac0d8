import Stepwise.Number.Written
import Stepwise.Text.Basic

/-!
Reading numbers. Digits of every script count, single underscores may stand between digits, and
blanks may surround the number. An integer has at most `maxDigits` digits.
-/

namespace Stepwise

inductive LiteralFault
  | notAnInteger (text : String)
  | tooManyDigits (count : Nat)
  deriving DecidableEq

namespace Literal

def maxDigits : Nat := 4300

/-- The blanks around a number: all but the four separators of records. -/
def isNumberBlank (c : Char) : Bool :=
  Text.isBlank c && !(0x1C ≤ c.toNat && c.toNat ≤ 0x1F)

def trimBlanks (cs : List Char) : List Char :=
  ((cs.dropWhile isNumberBlank).reverse.dropWhile isNumberBlank).reverse

def splitSign : List Char → Bool × List Char
  | '-' :: rest => (true, rest)
  | '+' :: rest => (false, rest)
  | cs => (false, cs)

/-- The digits of a text in which every underscore stands between two digits; `afterDigit` tells
whether a digit has just been read. -/
def spacedDigits? (afterDigit : Bool) : List Char → Option (List Nat)
  | [] => if afterDigit then some [] else none
  | '_' :: rest => if afterDigit then spacedDigits? false rest else none
  | c :: rest =>
      match Text.digitValue? c with
      | some value => (spacedDigits? true rest).map (value :: ·)
      | none => none

def ofDigits (digits : List Nat) : Nat := digits.foldl (fun total digit => total * 10 + digit) 0

def withSign (negative : Bool) (value : Nat) : Int :=
  if negative then -(value : Int) else value

def isDigitOrUnderscore (c : Char) : Bool := Text.isDecimalDigit c || c = '_'

def readInt (text : String) : Except LiteralFault Int :=
  let signed := splitSign (trimBlanks text.toList)
  let body := signed.2.takeWhile isDigitOrUnderscore
  match spacedDigits? false body with
  | none => .error (.notAnInteger text)
  | some digits =>
      if maxDigits < digits.length then .error (.tooManyDigits digits.length)
      else if body.length = signed.2.length then .ok (withSign signed.1 (ofDigits digits))
      else .error (.notAnInteger text)

def withoutUnderscores (afterDigit : Bool) : List Char → Option (List Char)
  | [] => some []
  | '_' :: c :: rest =>
      if afterDigit && Text.isDecimalDigit c then
        (withoutUnderscores true rest).map (c :: ·)
      else none
  | c :: rest =>
      if c = '_' then none
      else (withoutUnderscores (Text.isDecimalDigit c) rest).map (c :: ·)

def isExponentMark (c : Char) : Bool := c = 'e' || c = 'E'

def leadingDigits : List Char → List Nat × List Char
  | [] => ([], [])
  | c :: rest =>
      match Text.digitValue? c with
      | some value => (value :: (leadingDigits rest).1, (leadingDigits rest).2)
      | none => ([], c :: rest)

def readExponent : List Char → Option Int
  | [] => some 0
  | mark :: rest =>
      let signed := splitSign rest
      let digits := leadingDigits signed.2
      if isExponentMark mark && !digits.1.isEmpty && digits.2.isEmpty then
        some (withSign signed.1 (ofDigits digits.1))
      else none

def readDecimal (cs : List Char) : Option Decimal :=
  let whole := leadingDigits cs
  let part := match whole.2 with
    | '.' :: rest => leadingDigits rest
    | rest => ([], rest)
  if whole.1.isEmpty && part.1.isEmpty then none
  else (readExponent part.2).map fun exponent =>
    ⟨ofDigits (whole.1 ++ part.1), exponent - part.1.length⟩

def foldedName (cs : List Char) : String := String.ofList (cs.map Char.toLower)

def readSpecial (negative : Bool) (cs : List Char) : Option Double :=
  if foldedName cs = "inf" ∨ foldedName cs = "infinity" then some (.infinite negative)
  else if foldedName cs = "nan" then some .nan
  else none

def readDouble (text : String) : Option Double :=
  match withoutUnderscores false (trimBlanks text.toList) with
  | none => none
  | some cs =>
      let signed := splitSign cs
      match readSpecial signed.1 signed.2 with
      | some special => some special
      | none => (readDecimal signed.2).map (Decimal.toDouble signed.1)

def isNumber (text : String) : Bool := (readDouble text).isSome

end Literal

end Stepwise
