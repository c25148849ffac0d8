import Mathlib.Data.List.TakeWhile
import Stepwise.Text.Basic

/-!
Blank characters, what trimming leaves, and words, which have no blanks; texts written one after the
other with a separator between them. If the separator is in none of the texts, splitting what was
joined gives them back.
-/

namespace Stepwise.Text

@[simp] theorem isBlank_space : isBlank ' ' = true := by
  simp [isBlank, inRanges, blankRanges]

theorem isBlank_of_delimiter {c : Char} (delimiter : c ∈ ['(', ')', ',']) : isBlank c = false := by
  revert c
  simp [isBlank, inRanges, blankRanges]

theorem trim_ne_nil {cs : List Char} {c : Char} (member : c ∈ cs)
    (nonblank : isBlank c = false) : trim cs ≠ [] := by
  have kept : ∀ ds : List Char, c ∈ ds → c ∈ ds.dropWhile isBlank := by
    intro ds
    induction ds with
    | nil => exact fun absent => absurd absent List.not_mem_nil
    | cons d ds ih =>
        intro inside
        by_cases blank : isBlank d = true
        · rw [List.dropWhile_cons_of_pos blank]
          rcases List.mem_cons.mp inside with rfl | later
          · simp [nonblank] at blank
          · exact ih later
        · rwa [List.dropWhile_cons_of_neg blank]
  refine List.ne_nil_of_mem (a := c) ?_
  rw [trim, trimRight, List.mem_reverse]
  exact kept _ (List.mem_reverse.mpr (kept cs member))

theorem trim_eq_self {first last : Char} {cs : List Char} (head : cs.head? = some first)
    (final : cs.getLast? = some last) (opens : isBlank first = false)
    (closes : isBlank last = false) : trim cs = cs := by
  have keep : ∀ (c : Char) (ds : List Char), ds.head? = some c → isBlank c = false →
      ds.dropWhile isBlank = ds := by
    intro c ds starts nonblank
    cases ds with
    | nil => rfl
    | cons d ds =>
        obtain rfl := Option.some.inj starts
        simp [nonblank]
  rw [trim, trimLeft, keep first cs head opens, trimRight,
    keep last cs.reverse (by rw [List.head?_reverse, final]) closes, List.reverse_reverse]

theorem trim_padded {before after : List Char} (blankBefore : ∀ c ∈ before, isBlank c = true)
    (cs : List Char) (blankAfter : ∀ c ∈ after, isBlank c = true) :
    trim (before ++ (cs ++ after)) = trim cs := by
  have endsBlank : ∀ ds : List Char, trimRight (ds ++ after) = trimRight ds := by
    intro ds
    rw [trimRight, trimRight, List.reverse_append,
      List.dropWhile_append_of_pos fun c member => blankAfter c (List.mem_reverse.mp member)]
  rw [trim, trim, trimLeft, trimLeft, List.dropWhile_append_of_pos blankBefore,
    List.dropWhile_append]
  split
  · rename_i allBlank
    rw [List.isEmpty_iff.mp allBlank, List.dropWhile_eq_nil_iff.mpr blankAfter]
  · exact endsBlank _

theorem mem_of_mem_trim {c : Char} {cs : List Char} (member : c ∈ trim cs) : c ∈ cs := by
  rw [trim, trimRight, List.mem_reverse] at member
  have inLeft := List.mem_reverse.mp ((List.dropWhile_sublist _).subset member)
  exact (List.dropWhile_sublist _).subset inLeft

theorem trimRight_append (cs : List Char) :
    ∃ blanks, (∀ c ∈ blanks, isBlank c = true) ∧ trimRight cs ++ blanks = cs := by
  refine ⟨(cs.reverse.takeWhile isBlank).reverse, ?_, ?_⟩
  · exact fun c member => List.mem_takeWhile_imp (List.mem_reverse.mp member)
  · rw [trimRight, ← List.reverse_append, List.takeWhile_append_dropWhile, List.reverse_reverse]

theorem isBlank_getLast_trimRight {cs : List Char} {c : Char}
    (closes : c ∈ (trimRight cs).getLast?) : isBlank c = false := by
  rw [trimRight, List.getLast?_reverse] at closes
  have stops := List.head?_dropWhile_not isBlank cs.reverse
  rw [Option.mem_def.mp closes] at stops
  simpa using stops

theorem isBlank_head_trimLeft {cs rest : List Char} {c : Char} (trimmed : trimLeft cs = c :: rest) :
    isBlank c = false := by
  have stops := List.head?_dropWhile_not isBlank cs
  rw [← trimLeft, trimmed] at stops
  simpa using stops

theorem filter_trimLeft (cs : List Char) :
    (trimLeft cs).filter (fun c => !isBlank c) = cs.filter fun c => !isBlank c := by
  have none : (cs.takeWhile isBlank).filter (fun c => !isBlank c) = [] := by
    rw [List.filter_eq_nil_iff]
    intro c member
    simp [List.mem_takeWhile_imp member]
  have whole := congrArg (List.filter fun c => !isBlank c)
    (List.takeWhile_append_dropWhile (p := isBlank) (l := cs))
  rwa [List.filter_append, none, List.nil_append] at whole

def IsWord (text : String) : Prop := text.toList ≠ [] ∧ ∀ c ∈ text.toList, isBlank c = false

instance (text : String) : Decidable (IsWord text) :=
  decidable_of_iff (text.toList ≠ [] ∧ text.toList.all (fun c => !isBlank c) = true)
    (and_congr_right fun _ => by simp)

structure IsTrimmed (cs : List Char) : Prop where
  opens : ∃ c, cs.head? = some c ∧ isBlank c = false
  closes : ∃ c, cs.getLast? = some c ∧ isBlank c = false

theorem IsTrimmed.trim {cs : List Char} (trimmed : IsTrimmed cs) : trim cs = cs := by
  obtain ⟨first, head, opens⟩ := trimmed.opens
  obtain ⟨last, final, closes⟩ := trimmed.closes
  exact trim_eq_self head final opens closes

theorem IsTrimmed.around {first second : List Char} (one : IsTrimmed first)
    (two : IsTrimmed second) (between : List Char) : IsTrimmed (first ++ (between ++ second)) := by
  obtain ⟨c, head, opens⟩ := one.opens
  obtain ⟨d, final, closes⟩ := two.closes
  exact ⟨⟨c, by simp [head], opens⟩, ⟨d, by simp [List.getLast?_append, final], closes⟩⟩

theorem IsWord.isTrimmed {text : String} (word : IsWord text) : IsTrimmed text.toList := by
  obtain ⟨nonempty, unbroken⟩ := word
  refine ⟨⟨text.toList.head nonempty, List.head?_eq_some_head nonempty, ?_⟩,
    ⟨text.toList.getLast nonempty, List.getLast?_eq_some_getLast nonempty, ?_⟩⟩
  · exact unbroken _ (List.head_mem nonempty)
  · exact unbroken _ (List.getLast_mem nonempty)

theorem trim_of_nonblank {cs : List Char} (nonblank : ∀ c ∈ cs, isBlank c = false) :
    trim cs = cs := by
  by_cases empty : cs = []
  · rw [empty]
    rfl
  · have word : IsWord (String.ofList cs) := ⟨by simpa using empty, by simpa using nonblank⟩
    simpa using word.isTrimmed.trim

theorem IsWord.ne_space {text : String} (word : IsWord text) : ∀ c ∈ text.toList, c ≠ ' ' := by
  rintro c member rfl
  simpa using word.2 ' ' member

theorem runsAfter_run {separates : Char → Bool} {cs : List Char}
    (unbroken : ∀ c ∈ cs, separates c = false) (run rest : List Char) :
    runsAfter separates run (cs ++ rest) = runsAfter separates (cs.reverse ++ run) rest := by
  induction cs generalizing run with
  | nil => rfl
  | cons c cs ih =>
      rw [List.cons_append, runsAfter, unbroken c (by simp), if_neg Bool.false_ne_true,
        ih (fun other member => unbroken other (by simp [member]))]
      simp

theorem words_pair {first second : String} (one : IsWord first) (two : IsWord second) :
    words (first.toList ++ ' ' :: second.toList) = [first.toList, second.toList] := by
  have last : runsAfter isBlank [] second.toList = [second.toList] := by
    have whole := runsAfter_run two.2 [] []
    rw [List.append_nil] at whole
    simp [whole, runsAfter, two.1]
  rw [words, runsAfter_run one.2, runsAfter, if_pos isBlank_space, last]
  simp [one.1]

theorem toList_joined_cons (separator first second : String) (rest : List String) :
    (joined separator (first :: second :: rest)).toList =
      first.toList ++ (separator.toList ++ (joined separator (second :: rest)).toList) := by
  simp [joined]

theorem toList_joined (separator first : String) (rest : List String) :
    (joined separator (first :: rest)).toList =
      first.toList ++ (rest.map String.toList).flatMap (separator.toList ++ ·) := by
  induction rest generalizing first with
  | nil => simp [joined]
  | cons second rest ih =>
      rw [toList_joined_cons, ih second]
      simp

theorem mem_joined (separator : String) {text : String} {texts : List String}
    (member : text ∈ texts) {c : Char} (inside : c ∈ text.toList) :
    c ∈ (joined separator texts).toList := by
  obtain ⟨first, rest, rfl⟩ := List.exists_cons_of_ne_nil (List.ne_nil_of_mem member)
  rw [toList_joined, List.mem_append]
  rcases List.mem_cons.mp member with rfl | later
  · exact Or.inl inside
  · refine Or.inr (List.mem_flatMap.mpr ⟨text.toList, List.mem_map_of_mem later, ?_⟩)
    exact List.mem_append_right _ inside

theorem of_mem_joined {separator : String} {texts : List String} {c : Char}
    (member : c ∈ (joined separator texts).toList) :
    c ∈ separator.toList ∨ ∃ text ∈ texts, c ∈ text.toList := by
  cases texts with
  | nil => simp [joined] at member
  | cons first rest =>
      rw [toList_joined, List.mem_append] at member
      rcases member with inFirst | later
      · exact Or.inr ⟨first, List.mem_cons_self, inFirst⟩
      · obtain ⟨part, listed, inPart⟩ := List.mem_flatMap.mp later
        obtain ⟨text, inRest, rfl⟩ := List.mem_map.mp listed
        rcases List.mem_append.mp inPart with separates | inside
        · exact Or.inl separates
        · exact Or.inr ⟨text, List.mem_cons_of_mem first inRest, inside⟩

theorem joined_eq_intercalate (separator : String) (texts : List String) :
    joined separator texts = separator.intercalate texts := by
  induction texts with
  | nil => rfl
  | cons first rest ih =>
      cases rest with
      | nil => rw [joined, String.intercalate_singleton]
      | cons second rest =>
          rw [joined, ih, String.intercalate_cons_cons]
          simp

theorem splitAt_eq_splitOn (separator : Char) (cs : List Char) :
    splitAt separator cs = cs.splitOn separator := by
  induction cs with
  | nil => rfl
  | cons c rest ih =>
      rw [splitAt, ih, List.splitOn_cons_eq_if_modifyHead]
      by_cases same : c = separator
      · simp [same]
      · cases parts : rest.splitOn separator with
        | nil => simp [List.splitOn_eq_splitOnP] at parts
        | cons part others => simp [same]

theorem splitAt_joined {separator : Char} {texts : List String} (nonempty : texts ≠ [])
    (apart : ∀ text ∈ texts, separator ∉ text.toList) :
    splitAt separator (joined (String.ofList [separator]) texts).toList =
      texts.map String.toList := by
  rw [splitAt_eq_splitOn, joined_eq_intercalate, String.toList_intercalate, String.toList_ofList]
  refine List.splitOn_intercalate separator ?_ (by simpa using nonempty)
  simpa using apart

end Stepwise.Text
