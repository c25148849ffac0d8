import Stepwise.Address
import Stepwise.Proofs.Number.Numeral
import Stepwise.Proofs.Text

/-!
The compact form of addresses. Different addresses are written differently, and what is written is
read back as the address, if its numbers have no more digits than can be read. Whatever was read is
such an address, however it was written.
-/

namespace Stepwise.Address

structure IsReadable (a : Address) : Prop where
  path : ∀ index ∈ a.path, Literal.IsReadable index.natAbs
  pair : ∀ pair ∈ a.pair, Literal.IsReadable pair.natAbs

def numerals (path : List Int) : List (List Char) := path.map fun index => (toString index).toList

theorem nil_not_mem_numerals (path : List Int) : [] ∉ numerals path := by
  intro empty
  obtain ⟨index, _, none⟩ := List.mem_map.mp empty
  exact Literal.toString_int_ne_nil index none

theorem numerals_injective {path other : List Int} (same : numerals path = numerals other) :
    path = other := by
  refine (List.map_inj_right ?_).mp same
  exact fun _ _ written => Literal.toString_int_injective (String.toList_inj.mp written)

theorem splitAt_pathText {path : List Int} (nonempty : path ≠ []) :
    Text.splitAt '.' (pathText path).toList = numerals path := by
  have noPoint : ∀ text ∈ path.map toString, '.' ∉ text.toList := by
    simp only [List.mem_map]
    rintro _ ⟨index, _, rfl⟩ member
    rcases Literal.of_mem_toString_int member with minus | digit
    · exact absurd minus (by decide)
    · exact absurd digit (by decide)
  have parts := Text.splitAt_joined (by simpa using nonempty) noPoint
  rw [List.map_map] at parts
  rw [pathText, if_neg (by simpa using nonempty)]
  exact parts

theorem splitAt_root : Text.splitAt '.' (pathText []).toList = [[], []] := by
  simp [pathText, Text.splitAt]

theorem pathText_ne_root {path : List Int} (nonempty : path ≠ []) :
    pathText path ≠ pathText [] := by
  intro root
  have parts := splitAt_pathText nonempty
  rw [root, splitAt_root] at parts
  exact nil_not_mem_numerals path (parts ▸ List.mem_cons_self)

theorem pathText_injective {path other : List Int} (same : pathText path = pathText other) :
    path = other := by
  by_cases isRoot : path = []
  · by_cases otherRoot : other = []
    · rw [isRoot, otherRoot]
    · rw [isRoot] at same
      exact absurd same.symm (pathText_ne_root otherRoot)
  · by_cases otherRoot : other = []
    · rw [otherRoot] at same
      exact absurd same (pathText_ne_root isRoot)
    · apply numerals_injective
      rw [← splitAt_pathText isRoot, ← splitAt_pathText otherRoot, same]

theorem readParts_numerals {path : List Int}
    (readable : ∀ index ∈ path, Literal.IsReadable index.natAbs) :
    readParts (numerals path) = some path := by
  induction path with
  | nil => rfl
  | cons index path ih =>
      have here := Literal.readInt_toString_int (readable index (by simp))
      have later := ih fun other member => readable other (by simp [member])
      rw [numerals, List.map_cons, ← numerals, readParts, String.ofList_toList, here, later]
      rfl

theorem readPath_pathText {path : List Int}
    (readable : ∀ index ∈ path, Literal.IsReadable index.natAbs) :
    readPath (pathText path).toList = .ok path := by
  by_cases isRoot : path = []
  · rw [isRoot]
    rfl
  · have parts := splitAt_pathText isRoot
    have notRoot : ¬((pathText path).toList = [] ∨ (pathText path).toList = ['.']) := by
      rintro (none | point)
      · rw [none] at parts
        exact nil_not_mem_numerals path (parts ▸ List.mem_cons_self)
      · exact pathText_ne_root isRoot (String.toList_inj.mp point)
    rw [readPath, if_neg notRoot, parts, readParts_numerals readable]

def pairChars : Option Int → List Char
  | none => []
  | some pair => ':' :: (toString pair).toList

theorem toList_text (a : Address) : a.text.toList = (pathText a.path).toList ++ pairChars a.pair := by
  obtain ⟨path, pair⟩ := a
  cases pair with
  | none => simp [text, pairChars]
  | some pair => simp [text, pairChars]

theorem of_mem_pathText {path : List Int} {c : Char} (member : c ∈ (pathText path).toList) :
    c = '.' ∨ c = '-' ∨ c.isDigit = true := by
  unfold pathText at member
  split at member
  · exact Or.inl (by simpa using member)
  · rcases Text.of_mem_joined member with point | ⟨text, listed, inside⟩
    · exact Or.inl (by simpa using point)
    · obtain ⟨index, _, rfl⟩ := List.mem_map.mp listed
      exact Or.inr (Literal.of_mem_toString_int inside)

theorem span_text (a : Address) :
    a.text.toList.takeWhile (· ≠ ':') = (pathText a.path).toList ∧
      a.text.toList.dropWhile (· ≠ ':') = pairChars a.pair := by
  have noColon : ∀ c ∈ (pathText a.path).toList, decide (c ≠ ':') = true := by
    intro c member
    rcases of_mem_pathText member with rfl | rfl | digit
    · decide
    · decide
    · refine decide_eq_true ?_
      rintro rfl
      exact absurd digit (by decide)
  rw [toList_text, List.takeWhile_append_of_pos noColon, List.dropWhile_append_of_pos noColon]
  cases a.pair with
  | none => simp [pairChars]
  | some pair => simp [pairChars]

theorem text_injective {a b : Address} (same : a.text = b.text) : a = b := by
  have paths : pathText a.path = pathText b.path := by
    rw [← String.toList_inj, ← (span_text a).1, ← (span_text b).1, same]
  have pairs : pairChars a.pair = pairChars b.pair := by
    rw [← (span_text a).2, ← (span_text b).2, same]
  obtain ⟨path, pair⟩ := a
  obtain ⟨otherPath, other⟩ := b
  obtain rfl := pathText_injective paths
  cases pair with
  | none =>
      cases other with
      | none => rfl
      | some other => simp [pairChars] at pairs
  | some pair =>
      cases other with
      | none => simp [pairChars] at pairs
      | some other =>
          have written : toString pair = toString other :=
            String.toList_inj.mp (List.cons.inj pairs).2
          rw [Literal.toString_int_injective written]

theorem trim_text (a : Address) : Text.trim a.text.toList = a.text.toList := by
  have marks : ∀ c ∈ ['.', '-', ':'], Text.isBlank c = false := by
    simp [Text.isBlank, Text.inRanges, Text.blankRanges]
  refine Text.trim_of_nonblank fun c member => ?_
  rw [toList_text, List.mem_append] at member
  rcases member with inPath | inPair
  · rcases of_mem_pathText inPath with rfl | rfl | digit
    · exact marks '.' (by simp)
    · exact marks '-' (by simp)
    · exact Literal.isBlank_of_isDigit digit
  · cases pair : a.pair with
    | none => simp [pair, pairChars] at inPair
    | some number =>
        rw [pair, pairChars] at inPair
        rcases List.mem_cons.mp inPair with rfl | inNumber
        · exact marks ':' (by simp)
        · exact Literal.isBlank_of_mem_toString_int inNumber

theorem read_text {a : Address} (readable : a.IsReadable) : read a.text = .ok a := by
  obtain ⟨before, after⟩ := span_text a
  have path := readPath_pathText readable.path
  obtain ⟨numbers, pair⟩ := a
  rw [read, trim_text, after, before]
  cases pair with
  | none =>
      -- Without a colon the whole text is the path.
      have whole : (text ⟨numbers, none⟩).toList = (pathText numbers).toList := rfl
      rw [whole, path]
      rfl
  | some pair =>
      have number := Literal.readInt_toString_int (readable.pair pair rfl)
      simp only [pairChars, String.ofList_toList, number, path]
      rfl

theorem isReadable_of_readParts {parts : List (List Char)} {path : List Int}
    (read : readParts parts = some path) :
    ∀ index ∈ path, Literal.IsReadable index.natAbs := by
  induction parts generalizing path with
  | nil =>
      obtain rfl := Option.some.inj read
      simp
  | cons part rest ih =>
      rw [readParts] at read
      split at read
      · rename_i number here
        obtain ⟨numbers, later, rfl⟩ := Option.map_eq_some_iff.mp read
        exact List.forall_mem_cons.mpr
          ⟨Literal.isReadable_of_readInt here (Nat.le_refl _), ih later⟩
      · simp at read

theorem isReadable_of_readPath {cs : List Char} {path : List Int}
    (read : readPath cs = .ok path) : ∀ index ∈ path, Literal.IsReadable index.natAbs := by
  unfold readPath at read
  split at read
  · obtain rfl := Except.ok.inj read
    simp
  · split at read
    · rename_i numbers parts
      obtain rfl := Except.ok.inj read
      exact isReadable_of_readParts parts
    · simp at read

theorem isReadable_of_read {text : String} {a : Address} (parsed : read text = .ok a) :
    a.IsReadable := by
  unfold read at parsed
  dsimp only at parsed
  split at parsed
  · cases path : readPath (Text.trim text.toList) with
    | error fault => simp [path, Except.map] at parsed
    | ok numbers =>
        rw [path] at parsed
        obtain rfl := Except.ok.inj parsed
        exact ⟨isReadable_of_readPath path, by simp [ofPath]⟩
  · split at parsed
    · simp at parsed
    · rename_i pair number
      cases path : readPath ((Text.trim text.toList).takeWhile (· ≠ ':')) with
      | error fault =>
          rw [path] at parsed
          simp [Except.map] at parsed
      | ok numbers =>
          rw [path] at parsed
          obtain rfl := Except.ok.inj parsed
          refine ⟨isReadable_of_readPath path, ?_⟩
          rintro _ ⟨⟩
          exact Literal.isReadable_of_readInt number (Nat.le_refl _)

/-- What is written for an address of readable numbers is read as the address, and nothing else is
written like it; and whatever was read is an address of readable numbers, so that reading what is
written for it gives it again. -/
theorem text_reads_back :
    (∀ a : Address, a.IsReadable → read a.text = .ok a) ∧ Function.Injective text ∧
      ∀ (written : String) (a : Address), read written = .ok a →
        a.IsReadable ∧ read a.text = .ok a := by
  refine ⟨fun _ => read_text, fun _ _ => text_injective, fun written a parsed => ?_⟩
  have readable := isReadable_of_read parsed
  exact ⟨readable, read_text readable⟩

/-- Negative numbers, a pair, and another way to write them. -/
theorem text_reads_back_negative :
    let a : Address := ⟨[0, -12], some (-1)⟩
    a.IsReadable ∧ a.text = "0.-12:-1" ∧ read a.text = .ok a ∧ read " 00.-1_2: -1" = .ok a := by
  intro a
  have parsed : read " 00.-1_2: -1" = .ok a := by decide +kernel
  obtain ⟨readable, _⟩ := text_reads_back.2.2 _ a parsed
  exact ⟨readable, by decide +kernel, text_reads_back.1 a readable, parsed⟩

end Stepwise.Address
