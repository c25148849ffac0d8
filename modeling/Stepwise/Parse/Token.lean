import Stepwise.Text.Basic

/-!
The tokens of the infix notation: arrows, ellipses, words with an optional decimal part, and single
characters. Blanks separate tokens and are dropped.
-/

namespace Stepwise.Token

def isWordChar (c : Char) : Bool := c.isAlphanum || c = '_'

def startsDecimal : List Char → Bool
  | '.' :: c :: _ => c.isDigit
  | _ => false

def word (cs : List Char) : List Char :=
  let head := cs.takeWhile isWordChar
  let rest := cs.dropWhile isWordChar
  if startsDecimal rest then head ++ '.' :: (rest.drop 1).takeWhile Char.isDigit else head

def first : List Char → List Char
  | [] => []
  | '=' :: '>' :: _ => ['=', '>']
  | '.' :: '.' :: '.' :: _ => ['.', '.', '.']
  | c :: rest => if isWordChar c then word (c :: rest) else [c]

theorem word_ne_nil (c : Char) (rest : List Char) (isWord : isWordChar c = true) :
    word (c :: rest) ≠ [] := by
  have head : (c :: rest).takeWhile isWordChar = c :: rest.takeWhile isWordChar := by
    simp [isWord]
  simp only [word, head]
  split <;> simp

theorem first_ne_nil (c : Char) (rest : List Char) : first (c :: rest) ≠ [] := by
  unfold first
  split
  · simp_all
  · simp
  · simp
  · rename_i eq
    injection eq with sameHead sameTail
    subst sameHead sameTail
    split
    · rename_i isWord
      exact word_ne_nil c rest isWord
    · simp

theorem length_after_first (cs rest : List Char) (c : Char)
    (trimmed : Text.trimLeft cs = c :: rest) :
    ((c :: rest).drop (first (c :: rest)).length).length < cs.length := by
  have shorter : (Text.trimLeft cs).length ≤ cs.length := (List.dropWhile_sublist _).length_le
  have positive := List.length_pos_iff.mpr (first_ne_nil c rest)
  rw [trimmed] at shorter
  simp only [List.length_drop, List.length_cons] at shorter ⊢
  omega

def scanChars (cs : List Char) : List (List Char) :=
  match trimmed : Text.trimLeft cs with
  | [] => []
  | c :: rest =>
      have := length_after_first cs rest c trimmed
      first (c :: rest) :: scanChars ((c :: rest).drop (first (c :: rest)).length)
termination_by cs.length
decreasing_by assumption

def scan (text : String) : List String := (scanChars text.toList).map String.ofList

def isWord (token : String) : Bool :=
  match token.toList with
  | [] => false
  | c :: rest => isWordChar c && word (c :: rest) = c :: rest

end Stepwise.Token
