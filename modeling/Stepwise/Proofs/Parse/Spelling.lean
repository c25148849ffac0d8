import Stepwise.Proofs.Parse.Tokens
import Stepwise.Proofs.Text

/-!
How tokens are spelled. Whatever is left of a text, one of the spellings of a token is found after
its blanks, so that scanning refuses no text. The tokens make up the text without its blanks, and
written with blanks between them they are scanned as they are.
-/

namespace Stepwise.Token

def literal? (spelling cs : List Char) : Option (List Char) :=
  if spelling.isPrefixOf cs then some spelling else none

def decimals : List Char → List Char
  | '.' :: rest =>
      let digits := rest.takeWhile Char.isDigit
      if digits.isEmpty then [] else '.' :: digits
  | _ => []

def word? (cs : List Char) : Option (List Char) :=
  let letters := cs.takeWhile isWordChar
  if letters.isEmpty then none else some (letters ++ decimals (cs.dropWhile isWordChar))

def single? (allowed : Char → Bool) : List Char → Option (List Char)
  | [] => none
  | c :: _ => if allowed c then some [c] else none

def isBracket (c : Char) : Bool := c ∈ ['(', ')', ',']

def isOther (c : Char) : Bool := !(Text.isBlank c || isWordChar c || isBracket c)

def spellings : List (List Char → Option (List Char)) :=
  [literal? ['=', '>'], literal? ['.', '.', '.'], word?, single? isBracket, single? isOther]

def start? (cs : List Char) : Option (List Char) := spellings.findSome? fun spelling => spelling cs

theorem word_eq (cs : List Char) :
    word cs = cs.takeWhile isWordChar ++ decimals (cs.dropWhile isWordChar) := by
  unfold word
  dsimp only
  generalize cs.takeWhile isWordChar = letters
  match cs.dropWhile isWordChar with
  | [] => simp [startsDecimal, decimals]
  | [c] =>
      by_cases point : c = '.'
      · simp [startsDecimal, decimals, point]
      · simp [startsDecimal, decimals, point]
  | c :: d :: rest =>
      by_cases point : c = '.'
      · by_cases digit : d.isDigit = true
        · simp [startsDecimal, decimals, point, digit]
        · simp [startsDecimal, decimals, point, digit]
      · simp [startsDecimal, decimals, point]

theorem first_other {c : Char} {rest : List Char} (noArrow : ¬['=', '>'] <+: c :: rest)
    (noEllipsis : ¬['.', '.', '.'] <+: c :: rest) :
    first (c :: rest) = if isWordChar c then word (c :: rest) else [c] := by
  refine first.eq_4 c rest ?_ ?_
  · rintro more rfl rfl
    exact noArrow (List.prefix_append _ more)
  · rintro more rfl rfl
    exact noEllipsis (List.prefix_append _ more)

theorem first_cases {P : List Char → Prop} (arrow : ∀ rest, P ('=' :: '>' :: rest))
    (ellipsis : ∀ rest, P ('.' :: '.' :: '.' :: rest))
    (other : ∀ c rest, ¬['=', '>'] <+: c :: rest → ¬['.', '.', '.'] <+: c :: rest →
      P (c :: rest)) (c : Char) (rest : List Char) : P (c :: rest) := by
  by_cases isArrow : ['=', '>'] <+: c :: rest
  · obtain ⟨more, same⟩ := isArrow
    exact same ▸ arrow more
  · by_cases isEllipsis : ['.', '.', '.'] <+: c :: rest
    · obtain ⟨more, same⟩ := isEllipsis
      exact same ▸ ellipsis more
    · exact other c rest isArrow isEllipsis

theorem isBlank_of_sign {c : Char} (sign : c ∈ ['=', '>', '.']) : Text.isBlank c = false := by
  revert c
  simp [Text.isBlank, Text.inRanges, Text.blankRanges]

theorem start?_of_blank {c : Char} (blank : Text.isBlank c = true) (rest : List Char) :
    start? (c :: rest) = none := by
  have noSign : ∀ sign ∈ ['=', '>', '.'], sign ≠ c := by
    rintro sign listed rfl
    simp [isBlank_of_sign listed] at blank
  have noWord : isWordChar c = false := by
    rw [Bool.eq_false_iff]
    exact fun isWord => by simp [isBlank_of_isWordChar isWord] at blank
  have noBracket : isBracket c = false := by
    rw [Bool.eq_false_iff]
    exact fun bracket => by simp [Text.isBlank_of_delimiter (of_decide_eq_true bracket)] at blank
  simp [start?, spellings, literal?, word?, single?, isOther, noSign, noWord, noBracket, blank]

theorem start?_of_nonblank {c : Char} (nonblank : Text.isBlank c = false) (rest : List Char) :
    start? (c :: rest) = some (first (c :: rest)) := by
  revert nonblank
  refine first_cases (P := fun cs => Text.isBlank (cs.headD ' ') = false →
    start? cs = some (first cs)) ?_ ?_ ?_ c rest
  · exact fun _ _ => rfl
  · exact fun _ _ => rfl
  · intro c rest arrow ellipsis nonblank
    have plain : Text.isBlank c = false := nonblank
    have noArrow : literal? ['=', '>'] (c :: rest) = none :=
      if_neg (by simpa [List.isPrefixOf_iff_prefix] using arrow)
    have noEllipsis : literal? ['.', '.', '.'] (c :: rest) = none :=
      if_neg (by simpa [List.isPrefixOf_iff_prefix] using ellipsis)
    rw [first_other arrow ellipsis]
    by_cases isWord : isWordChar c = true
    · simp [start?, spellings, noArrow, noEllipsis, word?, isWord, word_eq]
    · by_cases bracket : isBracket c = true
      · simp [start?, spellings, noArrow, noEllipsis, word?, single?, isWord, bracket]
      · simp [start?, spellings, noArrow, noEllipsis, word?, single?, isOther, isWord, bracket,
          plain]

theorem start?_eq_some_iff {cs token : List Char} :
    start? cs = some token ↔
      ∃ c rest, cs = c :: rest ∧ Text.isBlank c = false ∧ token = first (c :: rest) := by
  constructor
  · intro starts
    cases cs with
    | nil => exact nomatch starts
    | cons c rest =>
        by_cases blank : Text.isBlank c = true
        · exact nomatch (start?_of_blank blank rest).symm.trans starts
        · have nonblank := Bool.eq_false_iff.mpr blank
          have same := (start?_of_nonblank nonblank rest).symm.trans starts
          exact ⟨c, rest, rfl, nonblank, (Option.some.inj same).symm⟩
  · rintro ⟨c, rest, rfl, nonblank, rfl⟩
    exact start?_of_nonblank nonblank rest

theorem length_after_start {cs token : List Char}
    (starts : start? (Text.trimLeft cs) = some token) :
    ((Text.trimLeft cs).drop token.length).length < cs.length := by
  obtain ⟨c, rest, trimmed, _, rfl⟩ := start?_eq_some_iff.mp starts
  rw [trimmed]
  exact length_after_first cs rest c trimmed

/-- Scans what is left of a text from a position on. If no token starts after the blanks there, the
position is refused, also where nothing but blanks is left. -/
def scanFrom (position : Nat) (cs : List Char) : Except Nat (List (List Char)) :=
  if cs = [] then .ok []
  else
    match starts : start? (Text.trimLeft cs) with
    | none => .error position
    | some token =>
        have := length_after_start starts
        let rest := (Text.trimLeft cs).drop token.length
        (scanFrom (position + (cs.length - rest.length)) rest).map (token :: ·)
termination_by cs.length
decreasing_by assumption

theorem scanFrom_of_start {cs token : List Char} (nonempty : cs ≠ [])
    (starts : start? (Text.trimLeft cs) = some token) (position : Nat) :
    scanFrom position cs =
      let rest := (Text.trimLeft cs).drop token.length
      (scanFrom (position + (cs.length - rest.length)) rest).map (token :: ·) := by
  rw [scanFrom, if_neg nonempty]
  split
  · rename_i refused
    exact nomatch refused.symm.trans starts
  · rename_i other found
    obtain rfl := Option.some.inj (found.symm.trans starts)
    rfl

def tryScan (text : String) : Except Nat (List String) :=
  (scanFrom 0 (Text.trimRight text.toList)).map fun tokens => tokens.map String.ofList

theorem decimals_cases (cs : List Char) :
    decimals cs = [] ∨ ∃ digits, digits ≠ [] ∧ (∀ d ∈ digits, d.isDigit = true) ∧
      decimals cs = '.' :: digits := by
  unfold decimals
  split
  · rename_i rest
    by_cases none : rest.takeWhile Char.isDigit = []
    · simp [none]
    · refine Or.inr ⟨rest.takeWhile Char.isDigit, none, fun d => List.mem_takeWhile_imp, ?_⟩
      simp [none]
  · exact Or.inl rfl

theorem decimals_isPrefix (cs : List Char) : decimals cs <+: cs := by
  unfold decimals
  split
  · dsimp only
    split
    · exact List.nil_prefix
    · exact (List.prefix_cons_inj '.').mpr (List.takeWhile_prefix _)
  · exact List.nil_prefix

theorem decimals_decimals (cs : List Char) : decimals (decimals cs) = decimals cs := by
  rcases decimals_cases cs with none | ⟨digits, nonempty, each, whole⟩
  · rw [none]
    rfl
  · rw [whole, decimals]
    simp [List.takeWhile_eq_self_iff.mpr each, nonempty]

theorem word_isPrefix (cs : List Char) : word cs <+: cs := by
  have whole := List.takeWhile_append_dropWhile (p := isWordChar) (l := cs)
  have inside := (List.prefix_append_right_inj (cs.takeWhile isWordChar)).mpr
    (decimals_isPrefix (cs.dropWhile isWordChar))
  rwa [whole, ← word_eq] at inside

theorem word_word (cs : List Char) : word (word cs) = word cs := by
  have letters : ∀ c ∈ cs.takeWhile isWordChar, isWordChar c = true :=
    fun c => List.mem_takeWhile_imp
  have atPoint : (decimals (cs.dropWhile isWordChar)).takeWhile isWordChar = [] ∧
      (decimals (cs.dropWhile isWordChar)).dropWhile isWordChar =
        decimals (cs.dropWhile isWordChar) := by
    have point : isWordChar '.' = false := by decide
    rcases decimals_cases (cs.dropWhile isWordChar) with none | ⟨digits, _, _, whole⟩
    · simp [none]
    · simp [whole, point]
  rw [word_eq cs, word_eq, List.takeWhile_append_of_pos letters,
    List.dropWhile_append_of_pos letters, atPoint.1, atPoint.2, decimals_decimals, List.append_nil]

theorem first_isPrefix (c : Char) (rest : List Char) : first (c :: rest) <+: c :: rest := by
  refine first_cases (P := fun cs => first cs <+: cs) ?_ ?_ ?_ c rest
  · exact fun rest => List.prefix_append ['=', '>'] rest
  · exact fun rest => List.prefix_append ['.', '.', '.'] rest
  · intro c rest arrow ellipsis
    rw [first_other arrow ellipsis]
    split
    · exact word_isPrefix _
    · exact List.prefix_append [c] rest

theorem first_first (c : Char) (rest : List Char) :
    first (first (c :: rest)) = first (c :: rest) := by
  refine first_cases (P := fun cs => first (first cs) = first cs) ?_ ?_ ?_ c rest
  · exact fun _ => rfl
  · exact fun _ => rfl
  · intro c rest arrow ellipsis
    -- What a token begins with, the text begins with as well.
    have inside := first_isPrefix c rest
    obtain ⟨d, more, parts⟩ := List.exists_cons_of_ne_nil (first_ne_nil c rest)
    rw [parts] at inside
    obtain ⟨rfl, _⟩ := List.cons_prefix_cons.mp inside
    rw [parts, first_other (fun other => arrow (other.trans inside))
      (fun other => ellipsis (other.trans inside)), ← parts, first_other arrow ellipsis]
    split
    · exact word_word _
    · rfl

theorem isBlank_of_mem_word {cs : List Char} {c : Char} (member : c ∈ word cs) :
    Text.isBlank c = false := by
  rw [word_eq, List.mem_append] at member
  rcases member with inLetters | inDecimals
  · exact isBlank_of_isWordChar (List.mem_takeWhile_imp inLetters)
  · rcases decimals_cases (cs.dropWhile isWordChar) with none | ⟨digits, _, each, whole⟩
    · simp [none] at inDecimals
    · rw [whole] at inDecimals
      rcases List.mem_cons.mp inDecimals with rfl | inDigits
      · exact isBlank_of_sign (by simp)
      · exact isBlank_of_isWordChar (isWordChar_of_isDigit (each c inDigits))

theorem isBlank_of_mem_first {c : Char} (nonblank : Text.isBlank c = false) (rest : List Char) :
    ∀ d ∈ first (c :: rest), Text.isBlank d = false := by
  revert nonblank
  refine first_cases (P := fun cs => Text.isBlank (cs.headD ' ') = false →
    ∀ d ∈ first cs, Text.isBlank d = false) ?_ ?_ ?_ c rest
  · intro rest _ d member
    exact isBlank_of_sign ((by decide : ['=', '>'] ⊆ ['=', '>', '.']) member)
  · intro rest _ d member
    exact isBlank_of_sign ((by decide : ['.', '.', '.'] ⊆ ['=', '>', '.']) member)
  · intro c rest arrow ellipsis nonblank d member
    rw [first_other arrow ellipsis] at member
    split at member
    · exact isBlank_of_mem_word member
    · exact List.mem_singleton.mp member ▸ nonblank

def BreaksOff (rest : List Char) : Prop := ∀ c ∈ rest.head?, Text.isBlank c = true

theorem BreaksOff.endsWord {rest : List Char} (breaks : BreaksOff rest) : EndsWord rest := by
  intro c opens
  have blank := breaks c opens
  constructor
  · rw [Bool.eq_false_iff]
    exact fun isWord => by simp [isBlank_of_isWordChar isWord] at blank
  · rintro rfl
    simp [isBlank_of_sign] at blank

theorem BreaksOff.prefix_iff {rest : List Char} (breaks : BreaksOff rest) {spelling : List Char}
    (nonblank : ∀ c ∈ spelling, Text.isBlank c = false) (cs : List Char) :
    spelling <+: cs ++ rest ↔ spelling <+: cs := by
  refine ⟨fun inside => ?_, fun inside => inside.trans (List.prefix_append cs rest)⟩
  rcases List.prefix_or_prefix_of_prefix inside (List.prefix_append cs rest) with
    within | ⟨later, rfl⟩
  · exact within
  · obtain ⟨more, rfl⟩ := (List.prefix_append_right_inj cs).mp inside
    cases later with
    | nil => simp
    | cons c later =>
        have blank := breaks c rfl
        simp [nonblank c (by simp)] at blank

theorem BreaksOff.first_append {rest : List Char} (breaks : BreaksOff rest) (c : Char)
    (more : List Char) : first (c :: more ++ rest) = first (c :: more) := by
  have signs : ∀ spelling ∈ [['=', '>'], ['.', '.', '.']], ∀ c ∈ spelling,
      Text.isBlank c = false := by
    have listed : ∀ spelling ∈ [['=', '>'], ['.', '.', '.']], spelling ⊆ ['=', '>', '.'] := by
      decide
    exact fun spelling known c member => isBlank_of_sign (listed spelling known member)
  refine first_cases (P := fun cs => first (cs ++ rest) = first cs) ?_ ?_ ?_ c more
  · exact fun _ => rfl
  · exact fun _ => rfl
  · intro c more arrow ellipsis
    rw [first_other arrow ellipsis, List.cons_append, first_other, ← List.cons_append,
      breaks.endsWord.word_append]
    · exact fun other => arrow ((breaks.prefix_iff (signs _ (by simp)) (c :: more)).mp other)
    · exact fun other => ellipsis ((breaks.prefix_iff (signs _ (by simp)) (c :: more)).mp other)

theorem exists_first_of_mem_scanChars {cs token : List Char} (member : token ∈ scanChars cs) :
    ∃ c rest, Text.isBlank c = false ∧ token = first (c :: rest) := by
  induction cs using scanChars.induct with
  | case1 cs trimmed => simp [scanChars_of_blank trimmed] at member
  | case2 cs c rest trimmed _ ih =>
      rw [scanChars_of_trim trimmed] at member
      rcases List.mem_cons.mp member with rfl | later
      · exact ⟨c, rest, Text.isBlank_head_trimLeft trimmed, rfl⟩
      · exact ih later

theorem flatten_scanChars (cs : List Char) :
    (scanChars cs).flatten = cs.filter fun c => !Text.isBlank c := by
  induction cs using scanChars.induct with
  | case1 cs trimmed =>
      rw [scanChars_of_blank trimmed, ← Text.filter_trimLeft, trimmed]
      rfl
  | case2 cs c rest trimmed _ ih =>
      have plain : (first (c :: rest)).filter (fun d => !Text.isBlank d) = first (c :: rest) := by
        refine List.filter_eq_self.mpr fun d member => ?_
        simp [isBlank_of_mem_first (Text.isBlank_head_trimLeft trimmed) rest d member]
      have whole := List.prefix_iff_eq_append.mp (first_isPrefix c rest)
      rw [scanChars_of_trim trimmed, List.flatten_cons, ih]
      calc first (c :: rest) ++ ((c :: rest).drop (first (c :: rest)).length).filter _
        _ = (first (c :: rest) ++ (c :: rest).drop (first (c :: rest)).length).filter _ := by
            rw [List.filter_append, plain]
        _ = (Text.trimLeft cs).filter _ := by rw [whole, trimmed]
        _ = cs.filter _ := Text.filter_trimLeft cs

theorem scanChars_append_blanks {blanks : List Char}
    (blank : ∀ c ∈ blanks, Text.isBlank c = true) (cs : List Char) :
    scanChars (cs ++ blanks) = scanChars cs := by
  have breaks : BreaksOff blanks := fun c opens => blank c (List.mem_of_mem_head? opens)
  induction cs using scanChars.induct with
  | case1 cs trimmed =>
      have allBlank : Text.trimLeft (cs ++ blanks) = [] := by
        refine List.dropWhile_eq_nil_iff.mpr fun c member => ?_
        rcases List.mem_append.mp member with before | after
        · exact List.dropWhile_eq_nil_iff.mp trimmed c before
        · exact blank c after
      rw [scanChars_of_blank trimmed, scanChars_of_blank allBlank]
  | case2 cs c rest trimmed _ ih =>
      have longer : Text.trimLeft (cs ++ blanks) = c :: (rest ++ blanks) := by
        have kept : (cs.dropWhile Text.isBlank).isEmpty = false := by
          rw [← Text.trimLeft, trimmed]
          rfl
        rw [Text.trimLeft, List.dropWhile_append, kept, if_neg Bool.false_ne_true,
          ← Text.trimLeft, trimmed, List.cons_append]
      have same := breaks.first_append c rest
      rw [List.cons_append] at same
      rw [scanChars_of_trim trimmed, scanChars_of_trim longer, same, ← List.cons_append,
        List.drop_append_of_le_length (first_isPrefix c rest).length_le, ih]

theorem scanFrom_eq {cs : List Char} (closes : ∀ c ∈ cs.getLast?, Text.isBlank c = false)
    (position : Nat) : scanFrom position cs = .ok (scanChars cs) := by
  induction cs using scanChars.induct generalizing position with
  | case1 cs trimmed =>
      have empty : cs = [] := by
        by_contra nonempty
        have last := List.dropWhile_eq_nil_iff.mp trimmed _ (List.getLast_mem nonempty)
        simp [closes _ (List.getLast?_eq_some_getLast nonempty)] at last
      rw [scanChars_of_blank trimmed, scanFrom, if_pos empty]
  | case2 cs c rest trimmed _ ih =>
      have nonempty : cs ≠ [] := by
        rintro rfl
        simp [Text.trimLeft] at trimmed
      have starts : start? (Text.trimLeft cs) = some (first (c :: rest)) :=
        start?_eq_some_iff.mpr ⟨c, rest, trimmed, Text.isBlank_head_trimLeft trimmed, rfl⟩
      have later : ∀ position, scanFrom position ((c :: rest).drop (first (c :: rest)).length) =
          .ok (scanChars ((c :: rest).drop (first (c :: rest)).length)) := by
        -- What is left ends as the text does.
        obtain ⟨before, whole⟩ : (c :: rest).drop (first (c :: rest)).length <:+ cs :=
          (List.drop_suffix _ _).trans (trimmed ▸ List.dropWhile_suffix _)
        refine ih fun d last => closes d ?_
        rw [← whole, List.getLast?_append, Option.mem_def.mp last]
        rfl
      rw [scanChars_of_trim trimmed, scanFrom_of_start nonempty starts, trimmed]
      dsimp only
      rw [later]
      rfl

theorem tryScan_eq (text : String) : tryScan text = .ok (scan text) := by
  have ends := fun c => @Text.isBlank_getLast_trimRight text.toList c
  obtain ⟨blanks, blank, whole⟩ := Text.trimRight_append text.toList
  have same := scanChars_append_blanks blank (Text.trimRight text.toList)
  rw [tryScan, scanFrom_eq ends, ← same, whole]
  rfl

def IsToken (token : String) : Prop :=
  Text.IsWord token ∧ ∀ rest, BreaksOff rest → first (token.toList ++ rest) = token.toList

theorem isToken_of_mem_scan {text token : String} (member : token ∈ scan text) :
    IsToken token := by
  obtain ⟨chars, listed, rfl⟩ := List.mem_map.mp member
  obtain ⟨c, rest, nonblank, rfl⟩ := exists_first_of_mem_scanChars listed
  obtain ⟨d, more, parts⟩ := List.exists_cons_of_ne_nil (first_ne_nil c rest)
  refine ⟨⟨?_, ?_⟩, fun after breaks => ?_⟩
  · simpa using first_ne_nil c rest
  · simpa using isBlank_of_mem_first nonblank rest
  · rw [String.toList_ofList, parts, breaks.first_append, ← parts, first_first]

theorem IsToken.scanChars_append {token : String} (isToken : IsToken token) {rest : List Char}
    (breaks : BreaksOff rest) :
    scanChars (token.toList ++ rest) = token.toList :: scanChars rest :=
  Token.scanChars_append isToken.1.1 (fun c opens => isToken.1.2 c (List.mem_of_mem_head? opens))
    (isToken.2 rest breaks)

theorem scan_joined {tokens : List String} (each : ∀ token ∈ tokens, IsToken token) :
    scan (Text.joined " " tokens) = tokens := by
  have chars : scanChars (Text.joined " " tokens).toList = tokens.map String.toList := by
    induction tokens with
    | nil => exact scanChars_of_blank rfl
    | cons first tokens ih =>
        have later := ih fun token member => each token (by simp [member])
        have isToken := each first (by simp)
        cases tokens with
        | nil =>
            have alone := isToken.scanChars_append (by simp [BreaksOff] : BreaksOff [])
            rwa [List.append_nil, (scanChars_of_blank rfl : scanChars [] = [])] at alone
        | cons second tokens =>
            have breaks : BreaksOff (" ".toList ++ (Text.joined " " (second :: tokens)).toList) := by
              simp [BreaksOff]
            rw [Text.toList_joined_cons, isToken.scanChars_append breaks, List.map_cons, ← later]
            exact congrArg _ (scanChars_blank Text.isBlank_space _)
  rw [scan, chars, List.map_map]
  simp

/-- Scanning refuses no text. Its tokens are words, they make up the text without its blanks, and
with a blank between them they are scanned again. -/
theorem scan_lossless (text : String) :
    tryScan text = .ok (scan text) ∧
      (∀ token ∈ scan text, Text.IsWord token) ∧
      String.join (scan text) = String.ofList (text.toList.filter fun c => !Text.isBlank c) ∧
      scan (Text.joined " " (scan text)) = scan text := by
  refine ⟨tryScan_eq text, fun _ member => (isToken_of_mem_scan member).1, ?_,
    scan_joined fun _ => isToken_of_mem_scan⟩
  rw [← String.toList_inj, String.toList_join, String.toList_ofList, ← flatten_scanChars, scan]
  simp [List.flatMap_map, List.flatMap_id']

example : scan " 2.5*x=>y - 1.z ... " = ["2.5", "*", "x", "=>", "y", "-", "1", ".", "z", "..."] := by
  decide +kernel

end Stepwise.Token
