import Stepwise.Json.Basic
import Stepwise.Number.Literal
import Stepwise.Parse.Basic

/-!
Reading JSON text. The names of undefined and infinite numbers are accepted beside the standard
grammar. Of several members with one name the last value counts, in the place of the first. An
integer with too many digits is no fault of the grammar, and is told apart from one.
-/

namespace Stepwise.Json

open Parse (Reading)

inductive ReadFault
  | malformed
  | literal (cause : LiteralFault)
  deriving DecidableEq

def isSpace (c : Char) : Bool := c = ' ' || c = '\t' || c = '\n' || c = '\r'

def skipSpace (cs : List Char) : List Char := cs.dropWhile isSpace

theorem length_skipSpace (cs : List Char) : (skipSpace cs).length ≤ cs.length :=
  (List.dropWhile_sublist _).length_le

theorem length_lt_of_skipSpace_eq_cons {cs after : List Char} {c : Char}
    (eq : skipSpace cs = c :: after) : after.length < cs.length := by
  have bound := length_skipSpace cs
  rw [eq] at bound
  exact bound

def hexValue? (c : Char) : Option Nat :=
  if c.isDigit then some (c.toNat - 0x30)
  else if 'a' ≤ c ∧ c ≤ 'f' then some (c.toNat - 0x57)
  else if 'A' ≤ c ∧ c ≤ 'F' then some (c.toNat - 0x37)
  else none

def hexCode? (a b c d : Char) : Option Nat := do
  let first ← hexValue? a
  let second ← hexValue? b
  let third ← hexValue? c
  let fourth ← hexValue? d
  return ((first * 16 + second) * 16 + third) * 16 + fourth

def isHighSurrogate (code : Nat) : Bool := 0xD800 ≤ code && code < 0xDC00

def isLowSurrogate (code : Nat) : Bool := 0xDC00 ≤ code && code < 0xE000

/-- The character of a code unit; half of a pair becomes the replacement character. -/
def unitChar (code : Nat) : Char :=
  if isHighSurrogate code || isLowSurrogate code then Char.ofNat 0xFFFD else Char.ofNat code

def pairChar (high low : Nat) : Char :=
  Char.ofNat (0x10000 + (high - 0xD800) * 0x400 + (low - 0xDC00))

def escaped? (c : Char) : Option Char :=
  match c with
  | '"' => some '"'
  | '\\' => some '\\'
  | '/' => some '/'
  | 'b' => some (Char.ofNat 8)
  | 'f' => some (Char.ofNat 12)
  | 'n' => some '\n'
  | 'r' => some '\r'
  | 't' => some '\t'
  | _ => none

def readString : (cs : List Char) → Option (Reading (List Char) cs)
  | [] => none
  | '"' :: rest => some ⟨[], rest, Nat.lt_succ_self _⟩
  | '\\' :: 'u' :: a :: b :: c :: d :: '\\' :: 'u' :: e :: f :: g :: h :: rest =>
      match hexCode? a b c d, hexCode? e f g h with
      | some high, some low =>
          if isHighSurrogate high && isLowSurrogate low then
            (readString rest).map fun r =>
              ⟨pairChar high low :: r.value, r.rest, Nat.lt_add_right 12 r.shorter⟩
          else
            (readString ('\\' :: 'u' :: e :: f :: g :: h :: rest)).map fun r =>
              ⟨unitChar high :: r.value, r.rest, Nat.lt_add_right 6 r.shorter⟩
      | _, _ => none
  | '\\' :: 'u' :: a :: b :: c :: d :: rest =>
      match hexCode? a b c d with
      | some code =>
          (readString rest).map fun r =>
            ⟨unitChar code :: r.value, r.rest, Nat.lt_add_right 6 r.shorter⟩
      | none => none
  | '\\' :: c :: rest =>
      match escaped? c with
      | some plain =>
          (readString rest).map fun r =>
            ⟨plain :: r.value, r.rest, Nat.lt_add_right 2 r.shorter⟩
      | none => none
  | c :: rest =>
      if c.toNat < 0x20 then none
      else (readString rest).map fun r => ⟨c :: r.value, r.rest, Nat.lt_succ_of_lt r.shorter⟩
termination_by cs => cs.length

def numberText (cs : List Char) : Option (List Char × Bool) :=
  let sign := if cs.head? = some '-' then ['-'] else []
  let unsigned := cs.drop sign.length
  let digits := unsigned.takeWhile Char.isDigit
  let whole := if digits.head? = some '0' then ['0'] else digits
  let afterWhole := unsigned.drop whole.length
  let fraction := match afterWhole with
    | '.' :: rest => '.' :: rest.takeWhile Char.isDigit
    | _ => []
  let fraction := if fraction.length ≤ 1 then [] else fraction
  let afterFraction := afterWhole.drop fraction.length
  let mark := afterFraction.take 1
  let afterMark := afterFraction.drop 1
  let exponentSign := match afterMark with
    | '+' :: _ => ['+']
    | '-' :: _ => ['-']
    | _ => []
  let exponentDigits := (afterMark.drop exponentSign.length).takeWhile Char.isDigit
  let exponent :=
    if (mark = ['e'] ∨ mark = ['E']) ∧ exponentDigits ≠ [] then
      mark ++ exponentSign ++ exponentDigits
    else []
  if whole = [] then none
  else some (sign ++ whole ++ fraction ++ exponent, fraction.isEmpty && exponent.isEmpty)

def numberValue (written : String) (isInt : Bool) : Except ReadFault Json :=
  if isInt then
    match Literal.readInt written with
    | .ok value => .ok (int value)
    | .error cause => .error (.literal cause)
  else
    match Literal.readDouble written with
    | some value => .ok (double value)
    | none => .error .malformed

def keywords : List (List Char × Json) := [
  ("null".toList, null), ("true".toList, bool true), ("false".toList, bool false),
  ("NaN".toList, double .nan), ("Infinity".toList, double (.infinite false)),
  ("-Infinity".toList, double (.infinite true))]

def readKeyword (cs : List Char) : List (List Char × Json) → Option (Json × List Char)
  | [] => none
  | (word, value) :: rest =>
      if word.isPrefixOf cs then some (value, cs.drop word.length) else readKeyword cs rest

def readScalar (cs : List Char) : Except ReadFault (Reading Json cs) := do
  let (value, rest) ← match readKeyword cs keywords with
    | some found => .ok found
    | none =>
        match numberText cs with
        | none => .error .malformed
        | some (written, isInt) => do
            let value ← numberValue (String.ofList written) isInt
            pure (value, cs.drop written.length)
  if shorter : rest.length < cs.length then .ok ⟨value, rest, shorter⟩ else .error .malformed

mutual

def readValue (cs : List Char) : Except ReadFault (Reading Json cs) :=
  match cs with
  | [] => .error .malformed
  | '"' :: rest =>
      match readString rest with
      | none => .error .malformed
      | some r => .ok ⟨text (String.ofList r.value), r.rest, Nat.lt_succ_of_lt r.shorter⟩
  | '[' :: rest =>
      match eq : skipSpace rest with
      | ']' :: after =>
          .ok ⟨list [], after, Nat.lt_succ_of_lt (length_lt_of_skipSpace_eq_cons eq)⟩
      | inner =>
          have bound : inner.length ≤ rest.length := eq ▸ length_skipSpace rest
          (readItems inner).map fun r =>
            ⟨list r.value, r.rest, Nat.lt_succ_of_lt (Nat.lt_of_lt_of_le r.shorter bound)⟩
  | '\x7b' :: rest =>
      match eq : skipSpace rest with
      | '\x7d' :: after =>
          .ok ⟨object [], after, Nat.lt_succ_of_lt (length_lt_of_skipSpace_eq_cons eq)⟩
      | inner =>
          have bound : inner.length ≤ rest.length := eq ▸ length_skipSpace rest
          (readMembers inner).map fun r =>
            ⟨object (Table.ofList r.value), r.rest,
              Nat.lt_succ_of_lt (Nat.lt_of_lt_of_le r.shorter bound)⟩
  | cs => readScalar cs
termination_by (cs.length, 0)

def readItems (cs : List Char) : Except ReadFault (Reading (List Json) cs) :=
  match readValue cs with
  | .error fault => .error fault
  | .ok first =>
      match eq : skipSpace first.rest with
      | ']' :: after =>
          .ok ⟨[first.value], after,
            Nat.lt_trans (length_lt_of_skipSpace_eq_cons eq) first.shorter⟩
      | ',' :: after =>
          have bound : (skipSpace after).length < cs.length :=
            Nat.lt_of_le_of_lt (length_skipSpace after)
              (Nat.lt_trans (length_lt_of_skipSpace_eq_cons eq) first.shorter)
          (readItems (skipSpace after)).map fun r =>
            ⟨first.value :: r.value, r.rest, Nat.lt_trans r.shorter bound⟩
      | _ => .error .malformed
termination_by (cs.length, 1)

def readMembers (cs : List Char) : Except ReadFault (Reading (List (String × Json)) cs) :=
  match cs with
  | '"' :: named =>
      match readString named with
      | none => .error .malformed
      | some name =>
          match colon : skipSpace name.rest with
          | ':' :: valued =>
              have valueBound : (skipSpace valued).length < named.length + 1 :=
                Nat.lt_succ_of_lt (Nat.lt_of_le_of_lt (length_skipSpace valued)
                  (Nat.lt_trans (length_lt_of_skipSpace_eq_cons colon) name.shorter))
              match readValue (skipSpace valued) with
              | .error fault => .error fault
              | .ok first =>
                  have restBound : first.rest.length < named.length + 1 :=
                    Nat.lt_trans first.shorter valueBound
                  match eq : skipSpace first.rest with
                  | '\x7d' :: after =>
                      .ok ⟨[(String.ofList name.value, first.value)], after,
                        Nat.lt_trans (length_lt_of_skipSpace_eq_cons eq) restBound⟩
                  | ',' :: after =>
                      have bound : (skipSpace after).length < named.length + 1 :=
                        Nat.lt_of_le_of_lt (length_skipSpace after)
                          (Nat.lt_trans (length_lt_of_skipSpace_eq_cons eq) restBound)
                      (readMembers (skipSpace after)).map fun r =>
                        ⟨(String.ofList name.value, first.value) :: r.value, r.rest,
                          Nat.lt_trans r.shorter bound⟩
                  | _ => .error .malformed
          | _ => .error .malformed
  | _ => .error .malformed
termination_by (cs.length, 1)

end

def decode (written : String) : Except ReadFault Json :=
  match readValue (skipSpace written.toList) with
  | .error fault => .error fault
  | .ok reading =>
      if (skipSpace reading.rest).isEmpty then .ok reading.value else .error .malformed

def read (written : String) : Option Json := (decode written).toOption

end Stepwise.Json
