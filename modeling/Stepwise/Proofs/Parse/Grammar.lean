import Mathlib.Data.Set.List
import Stepwise.Proofs.Parse.Formed
import Stepwise.Proofs.Parse.Written

/-!
The grammar of the applied notation. Its derivations keep the blanks and the symbols of the text;
a text has one derivation at most, reading it is evaluating that derivation, and it is read as an
expression just when the markers of the derivation are well placed.
-/

namespace Stepwise.Parse

open Stepwise.Expr

abbrev Blanks := { cs : List Char // ∀ c ∈ cs, Text.isBlank c = true }

abbrev Symbol := { symbol : String // IsSymbol symbol }

/-- A symbol alone, a symbol before empty parentheses, and a symbol before operands that are
separated by commas. -/
inductive Derivation
  | word (before : Blanks) (symbol : Symbol) (after : Blanks)
  | bare (before : Blanks) (symbol : Symbol) (between inside after : Blanks)
  | applied (before : Blanks) (symbol : Symbol) (between : Blanks) (first : Derivation)
      (others : List Derivation) (after : Blanks)

namespace Derivation

theorem induction {P : Derivation → Prop}
    (word : ∀ before symbol after, P (word before symbol after))
    (bare : ∀ before symbol between inside after, P (bare before symbol between inside after))
    (applied : ∀ before symbol between first others after, P first → (∀ d ∈ others, P d) →
      P (applied before symbol between first others after))
    (d : Derivation) : P d :=
  Derivation.rec (motive_1 := P) (motive_2 := fun ds => ∀ d ∈ ds, P d) word bare
    (fun before symbol between first others after here each =>
      applied before symbol between first others after here each)
    (fun _ member => nomatch member)
    (fun _ _ here each => List.forall_mem_cons.mpr ⟨here, each⟩)
    d

def padded (before : Blanks) (core : List Char) (after : Blanks) : List Char :=
  before.1 ++ (core ++ after.1)

mutual

def chars : Derivation → List Char
  | word before symbol after => padded before symbol.1.toList after
  | bare before symbol between inside after =>
      padded before (spacedText symbol.1 between.1 inside.1) after
  | applied before symbol between first others after =>
      padded before (spacedText symbol.1 between.1 (first.chars ++ charsAfter others)) after

def charsAfter : List Derivation → List Char
  | [] => []
  | d :: rest => ',' :: (d.chars ++ charsAfter rest)

end

mutual

def value (ctx : Context) : Derivation → Attempt Expr
  | word _ symbol _ => .ok (leaf ctx symbol.1)
  | bare _ symbol _ _ _ => application ctx symbol.1 []
  | applied _ symbol _ first others _ => do
      let operand ← first.value ctx
      let more ← valueEach ctx others
      application ctx symbol.1 (operand :: more)

def valueEach (ctx : Context) : List Derivation → Attempt (List Expr)
  | [] => .ok []
  | d :: rest => do
      let operand ← d.value ctx
      let more ← valueEach ctx rest
      return operand :: more

end

def isMark : Derivation → Bool
  | word .. => false
  | bare _ symbol _ _ _ => symbol.1 = ellipsis
  | applied _ symbol _ _ _ _ => symbol.1 = ellipsis

mutual

/-- The ellipsis is applied to one operand, which is no such application; and as an operand such an
application stands alone under an associative operator. -/
def WellPlaced (ctx : Context) : Derivation → Prop
  | word .. => True
  | bare _ symbol _ _ _ => symbol.1 ≠ ellipsis
  | applied _ symbol _ first others _ =>
      (symbol.1 = ellipsis → others = [] ∧ first.isMark = false) ∧
        (∀ operand ∈ first :: others, operand.isMark = true →
          others = [] ∧ symbol.1 ∈ ctx.assocOps) ∧
        first.WellPlaced ctx ∧ AreWellPlaced ctx others

def AreWellPlaced (ctx : Context) : List Derivation → Prop
  | [] => True
  | d :: rest => d.WellPlaced ctx ∧ AreWellPlaced ctx rest

end

theorem charsAfter_eq (ds : List Derivation) :
    charsAfter ds = (ds.map chars).flatMap (',' :: ·) := by
  induction ds with
  | nil => rfl
  | cons d ds ih => simp [charsAfter, ih]

theorem valueEach_eq_mapM (ctx : Context) (ds : List Derivation) :
    valueEach ctx ds = ds.mapM (value ctx) := by
  induction ds with
  | nil => rfl
  | cons d ds ih => rw [valueEach, List.mapM_cons, ih]

theorem areWellPlaced_iff (ctx : Context) (ds : List Derivation) :
    AreWellPlaced ctx ds ↔ ∀ d ∈ ds, d.WellPlaced ctx := by
  induction ds with
  | nil => simp [AreWellPlaced]
  | cons d ds ih => simp [AreWellPlaced, ih]

theorem exists_padded (text : List Char) :
    ∃ before after : Blanks, text = padded before (Text.trim text) after := by
  let left := text.dropWhile Text.isBlank
  refine ⟨⟨text.takeWhile Text.isBlank, fun _ => List.mem_takeWhile_imp⟩,
    ⟨(left.reverse.takeWhile Text.isBlank).reverse, fun c member =>
      List.mem_takeWhile_imp (List.mem_reverse.mp member)⟩, ?_⟩
  have right : Text.trim text ++ (left.reverse.takeWhile Text.isBlank).reverse = left := by
    rw [Text.trim, Text.trimRight, ← List.reverse_append]
    exact (congrArg List.reverse List.takeWhile_append_dropWhile).trans (List.reverse_reverse _)
  rw [padded, right, List.takeWhile_append_dropWhile]

def IsBare (cs : List Char) : Prop :=
  Text.trim cs = cs ∧ ∃ c rest, cs = c :: rest ∧ Text.isBlank c = false

theorem isBare_symbol (symbol : Symbol) : IsBare symbol.1.toList :=
  ⟨trim_symbol symbol.2, symbol.2.exists_cons⟩

theorem isBare_spacedText (symbol : Symbol) (between inner : List Char) :
    IsBare (spacedText symbol.1 between inner) := by
  obtain ⟨c, rest, parts, nonblank⟩ := symbol.2.exists_cons
  exact ⟨trim_spacedText symbol.2 between inner, c, _, by rw [spacedText, parts]; rfl, nonblank⟩

theorem padded_injective {before before' after after' : Blanks} {core core' : List Char}
    (bare : IsBare core) (bare' : IsBare core')
    (same : padded before core after = padded before' core' after') :
    before = before' ∧ core = core' ∧ after = after' := by
  have trimmed : ∀ (before after : Blanks) {core : List Char}, IsBare core →
      Text.trim (padded before core after) = core :=
    fun before after core bare => (Text.trim_padded before.2 core after.2).trans bare.1
  have leading : ∀ (before after : Blanks) {core : List Char}, IsBare core →
      (padded before core after).takeWhile Text.isBlank = before.1 := by
    rintro before after _ ⟨_, c, rest, rfl, nonblank⟩
    rw [padded, List.takeWhile_append_of_pos before.2, List.cons_append,
      List.takeWhile_cons_of_neg (by simp [nonblank]), List.append_nil]
  have sameBefore : before = before' :=
    Subtype.ext ((leading before after bare).symm.trans (same ▸ leading before' after' bare'))
  have sameCore : core = core' :=
    (trimmed before after bare).symm.trans (same ▸ trimmed before' after' bare')
  subst sameBefore sameCore
  exact ⟨rfl, rfl, Subtype.ext (List.append_cancel_left (List.append_cancel_left same))⟩

theorem spacedText_injective {symbol symbol' : Symbol} {between between' : Blanks}
    {inner inner' : List Char}
    (same : spacedText symbol.1 between.1 inner = spacedText symbol'.1 between'.1 inner') :
    symbol = symbol' ∧ between = between' ∧ inner = inner' := by
  have name : ∀ (symbol : Symbol) (between : Blanks) (inner : List Char),
      Text.trim ((spacedText symbol.1 between.1 inner).takeWhile (· ≠ '(')) = symbol.1.toList := by
    intro symbol between inner
    rw [takeWhile_spacedText symbol.2 between.2]
    exact (@Text.trim_padded [] between.1 (by simp) _ between.2).trans (trim_symbol symbol.2)
  have sameSymbol : symbol = symbol' := by
    have sameName := name symbol between inner
    rw [same, name] at sameName
    exact Subtype.ext (String.toList_inj.mp sameName.symm)
  subst sameSymbol
  have sameHead := takeWhile_spacedText symbol.2 between.2 inner
  rw [same, takeWhile_spacedText symbol.2 between'.2] at sameHead
  have sameInner := innerText_spacedText symbol.2 between.2 inner
  rw [same, innerText_spacedText symbol.2 between'.2] at sameInner
  exact ⟨rfl, Subtype.ext (List.append_cancel_left sameHead).symm, sameInner.symm⟩

theorem spacedText_ne_symbol (symbol symbol' : Symbol) (between inner : List Char) :
    spacedText symbol.1 between inner ≠ symbol'.1.toList := by
  intro same
  have opened : '(' ∈ spacedText symbol.1 between inner := by simp [spacedText]
  exact symbol'.2.unopened '(' (same ▸ opened) rfl

theorem takeWhile_append_innerText {cs : List Char} (opened : '(' ∈ cs)
    (closed : cs.getLast? = some ')') :
    cs.takeWhile (· ≠ '(') ++ '(' :: (innerText cs ++ [')']) = cs := by
  obtain ⟨name, rest, rfl, absent⟩ := List.eq_append_cons_of_mem opened
  have unopened : ∀ c ∈ name, decide (c ≠ '(') = true := by
    intro c member
    simpa using fun same : c = '(' => absent (same ▸ member)
  obtain ⟨inner, rfl⟩ : ∃ inner, rest = inner ++ [')'] := by
    rw [← List.getLast?_eq_some_iff]
    cases rest with
    | nil => simp at closed
    | cons c rest => simpa [List.getLast?_append, List.getLast?_cons] using closed
  rw [innerText, List.takeWhile_append_of_pos unopened, List.dropWhile_append_of_pos unopened]
  simp

theorem exists_nonblank_padded (before : Blanks) (symbol : Symbol) (tail : List Char)
    (after : Blanks) :
    ∃ c ∈ padded before (symbol.1.toList ++ tail) after, Text.isBlank c = false := by
  obtain ⟨c, rest, parts, nonblank⟩ := symbol.2.exists_cons
  exact ⟨c, by simp [padded, parts], nonblank⟩

theorem exists_nonblank (d : Derivation) : ∃ c ∈ d.chars, Text.isBlank c = false := by
  cases d with
  | word before symbol after => simpa [chars] using exists_nonblank_padded before symbol [] after
  | bare before symbol between inside after => exact exists_nonblank_padded before symbol _ after
  | applied before symbol between first others after =>
      exact exists_nonblank_padded before symbol _ after

theorem passedAt_blanks (blanks : Blanks) (depth : Nat) : PassedAt depth blanks.1 := by
  refine passedAt_plain (fun c member => ?_) depth
  have blank := blanks.2 c member
  refine ⟨?_, ?_, ?_⟩
  all_goals
    rintro rfl
    simp [Text.isBlank_of_delimiter] at blank

theorem passedAt_padded {depth : Nat} {core : List Char} (before : Blanks)
    (passed : PassedAt depth core) (after : Blanks) : PassedAt depth (padded before core after) :=
  (passedAt_blanks before depth).append (passed.append (passedAt_blanks after depth))

theorem passedAt_spacedText {depth : Nat} {inner : List Char} (symbol : Symbol) (between : Blanks)
    (inside : PassedAt (depth + 1) inner) :
    PassedAt depth (spacedText symbol.1 between.1 inner) :=
  (passedAt_symbol symbol.2.2 depth).append
    ((passedAt_blanks between depth).append inside.enclosed)

theorem passedAt_charsAfter {ds : List Derivation} {depth : Nat}
    (each : ∀ d ∈ ds, PassedAt (depth + 1) d.chars) : PassedAt (depth + 1) (charsAfter ds) := by
  induction ds with
  | nil => exact fun part rest => rfl
  | cons d ds ih =>
      have comma : PassedAt (depth + 1) [','] :=
        passedAt_singleton (by decide) (by decide) fun _ => Nat.succ_ne_zero depth
      rw [charsAfter]
      exact comma.append
        ((each d (by simp)).append (ih fun other member => each other (by simp [member])))

theorem passedAt_chars (d : Derivation) (depth : Nat) : PassedAt depth d.chars := by
  induction d using Derivation.induction generalizing depth with
  | word before symbol after =>
      exact passedAt_padded before (passedAt_symbol symbol.2.2 depth) after
  | bare before symbol between inside after =>
      exact passedAt_padded before
        (passedAt_spacedText symbol between (passedAt_blanks inside (depth + 1))) after
  | applied before symbol between first others after here each =>
      rw [chars]
      exact passedAt_padded before (passedAt_spacedText symbol between ((here (depth + 1)).append
        (passedAt_charsAfter fun d member => each d member (depth + 1)))) after

theorem splitOperands_chars (first : Derivation) (others : List Derivation) :
    splitOperands 0 [] (first.chars ++ charsAfter others) =
      .ok (first.chars :: others.map chars) := by
  rw [charsAfter_eq]
  refine splitOperands_flatMap (passedAt_chars first 0) ?_
  simp only [List.mem_map]
  rintro _ ⟨d, _, rfl⟩
  exact passedAt_chars d 0

theorem trim_operands_ne_nil (first : Derivation) (others : List Derivation) :
    Text.trim (first.chars ++ charsAfter others) ≠ [] := by
  obtain ⟨c, member, nonblank⟩ := first.exists_nonblank
  exact Text.trim_ne_nil (List.mem_append_left _ member) nonblank

theorem trim_blanks (blanks : Blanks) : Text.trim blanks.1 = [] := by
  simpa [Text.trim, Text.trimLeft, Text.trimRight] using
    @Text.trim_padded _ [] blanks.2 [] (by simp)

/-! Reading is evaluating. -/

theorem value_applied (ctx : Context) (before : Blanks) (symbol : Symbol) (between : Blanks)
    (first : Derivation) (others : List Derivation) (after : Blanks) :
    (applied before symbol between first others after).value ctx =
      (first :: others).mapM (value ctx) >>= application ctx symbol.1 := by
  rw [value, valueEach_eq_mapM, List.mapM_cons]
  simp only [bind_assoc, pure_bind]

theorem appliedChars_applied (ctx : Context) (before : Blanks) (symbol : Symbol)
    (between : Blanks) (inner : List Char) (after : Blanks) :
    appliedChars ctx (padded before (spacedText symbol.1 between.1 inner) after) =
      if Text.trim inner = [] then application ctx symbol.1 []
      else splitOperands 0 [] inner >>= fun parts =>
        parts.mapM (appliedChars ctx) >>= application ctx symbol.1 := by
  rw [padded, appliedChars_padded ctx before.2 _ after.2,
    appliedChars_spacedText ctx symbol.2 between.2]

theorem appliedChars_chars (ctx : Context) (d : Derivation) :
    appliedChars ctx d.chars = d.value ctx := by
  induction d using Derivation.induction with
  | word before symbol after =>
      rw [chars, padded, appliedChars_padded ctx before.2 _ after.2,
        appliedChars_symbol ctx symbol.2]
      rfl
  | bare before symbol between inside after =>
      rw [chars, appliedChars_applied, if_pos (trim_blanks inside)]
      rfl
  | applied before symbol between first others after here each =>
      have read : ((first :: others).map chars).mapM (appliedChars ctx) =
          (first :: others).mapM (value ctx) := by
        rw [List.mapM_map]
        exact Attempt.mapM_congr (List.forall_mem_cons.mpr ⟨here, each⟩)
      rw [chars, appliedChars_applied, if_neg (trim_operands_ne_nil first others),
        splitOperands_chars, value_applied, ← read]
      rfl

theorem blank_of_trim_eq_nil {cs : List Char} (blank : Text.trim cs = []) :
    ∀ c ∈ cs, Text.isBlank c = true := by
  intro c member
  by_contra nonblank
  exact Text.trim_ne_nil member (by simpa using nonblank) blank

theorem exists_padded_spacedText {cs : List Char} (before after : Blanks) (opened : '(' ∈ cs)
    (closed : cs.getLast? = some ')') :
    ∃ before' between : Blanks, padded before cs after = padded before' (spacedText
      (String.ofList (Text.trim (cs.takeWhile (· ≠ '(')))) between.1 (innerText cs)) after := by
  obtain ⟨leading, between, parts⟩ := exists_padded (cs.takeWhile (· ≠ '('))
  have whole := (takeWhile_append_innerText opened closed).symm
  refine ⟨⟨before.1 ++ leading.1, ?_⟩, between, (congrArg (padded before · after) whole).trans ?_⟩
  · intro c member
    exact (List.mem_append.mp member).elim (before.2 c) (leading.2 c)
  · generalize Text.trim (cs.takeWhile (· ≠ '(')) = name at parts ⊢
    rw [parts, spacedText, String.toList_ofList]
    simp only [padded, List.append_assoc, List.cons_append]

/-- A text that is not refused as it stands is a symbol or an operator before its operands. -/
theorem text_cases (ctx : Context) (text : List Char) :
    (∃ cause, appliedChars ctx text = .error (.parse cause)) ∨
      (∃ (before : Blanks) (symbol : Symbol) (after : Blanks),
        text = padded before symbol.1.toList after) ∨
      ∃ (before : Blanks) (symbol : Symbol) (between : Blanks) (inner : List Char) (after : Blanks),
        text = padded before (spacedText symbol.1 between.1 inner) after := by
  obtain ⟨before, after, parts⟩ := exists_padded text
  rw [appliedChars_eq]
  dsimp only
  split
  · exact Or.inl ⟨_, rfl⟩
  · rename_i nonempty
    split
    · rename_i unopened
      split
      · exact Or.inl ⟨_, rfl⟩
      · rename_i unended
        have isSymbol := isSymbol_ofList nonempty
          (isSymbolChar_of_unended unended fun c member same => unopened (same ▸ member))
        refine Or.inr (Or.inl ⟨before, ⟨_, isSymbol⟩, after, ?_⟩)
        rw [String.toList_ofList]
        exact parts
    · rename_i opened
      split
      · exact Or.inl ⟨_, rfl⟩
      · rename_i operator
        split
        · exact Or.inl ⟨_, rfl⟩
        · rename_i closed
          obtain ⟨before, between, whole⟩ := exists_padded_spacedText before after
            (Decidable.not_not.mp opened) (Decidable.not_not.mp closed)
          exact Or.inr (Or.inr ⟨before, ⟨_, isSymbol_operator operator⟩, between, _, after,
            parts.trans whole⟩)

theorem length_part {inner part : List Char} {parts : List (List Char)}
    (split : splitOperands 0 [] inner = .ok parts) (member : part ∈ parts)
    (before : Blanks) (symbol : Symbol) (between after : Blanks) :
    part.length < (padded before (spacedText symbol.1 between.1 inner) after).length := by
  have bound := length_of_mem_splitOperands 0 [] inner parts split part member
  simp only [List.length_nil, Nat.zero_add] at bound
  simp only [padded, spacedText, List.length_append, List.length_cons]
  omega

theorem exists_map_chars {parts : List (List Char)}
    (each : ∀ part ∈ parts, ∃ d : Derivation, d.chars = part) :
    ∃ ds : List Derivation, ds.map chars = parts := by
  have range : parts ∈ Set.range (List.map chars) := by
    rw [Set.range_list_map]
    exact each
  exact range

theorem exists_of_appliedChars {ctx : Context} {text : List Char} {e : Expr}
    (read : appliedChars ctx text = .ok e) : ∃ d : Derivation, d.chars = text := by
  generalize size : text.length = bound
  induction bound using Nat.strongRecOn generalizing text e with
  | ind bound ih =>
      rcases text_cases ctx text with
        ⟨_, refused⟩ | ⟨before, symbol, after, rfl⟩ | ⟨before, symbol, between, inner, after, rfl⟩
      · simp [refused] at read
      · exact ⟨word before symbol after, by rw [chars]⟩
      · rw [appliedChars_applied] at read
        split at read
        · rename_i blank
          exact ⟨bare before symbol between ⟨inner, blank_of_trim_eq_nil blank⟩ after,
            by rw [chars]⟩
        · obtain ⟨parts, split, read⟩ := Attempt.bind_eq_ok.mp read
          obtain ⟨operands, readEach, _⟩ := Attempt.bind_eq_ok.mp read
          obtain ⟨ds, rfl⟩ := exists_map_chars fun part member => by
            obtain ⟨operand, readPart⟩ :=
              Attempt.exists_mapM_eq_ok_iff.mp ⟨_, readEach⟩ part member
            exact ih part.length (size ▸ length_part split member _ _ _ _) readPart rfl
          obtain ⟨first, others, same, joined⟩ := splitOperands_eq_ok split
          obtain ⟨operand, more, rfl, rfl, rfl⟩ := List.map_eq_cons_iff.mp same
          refine ⟨applied before symbol between operand more after, ?_⟩
          rw [chars, charsAfter_eq, ← joined]
          rfl

theorem padded_spacedText_injective {before before' after after' between between' : Blanks}
    {symbol symbol' : Symbol} {inner inner' : List Char}
    (same : padded before (spacedText symbol.1 between.1 inner) after =
      padded before' (spacedText symbol'.1 between'.1 inner') after') :
    before = before' ∧ symbol = symbol' ∧ between = between' ∧ inner = inner' ∧ after = after' := by
  obtain ⟨sameBefore, cores, sameAfter⟩ :=
    padded_injective (isBare_spacedText symbol _ _) (isBare_spacedText symbol' _ _) same
  obtain ⟨sameSymbol, sameBetween, sameInner⟩ := spacedText_injective cores
  exact ⟨sameBefore, sameSymbol, sameBetween, sameInner, sameAfter⟩

theorem padded_spacedText_ne (before before' after after' between : Blanks)
    (symbol symbol' : Symbol) (inner : List Char) :
    padded before (spacedText symbol.1 between.1 inner) after ≠
      padded before' symbol'.1.toList after' := by
  intro same
  have cores := padded_injective (isBare_spacedText symbol _ _) (isBare_symbol symbol') same
  exact spacedText_ne_symbol symbol symbol' _ _ cores.2.1

theorem map_chars_injective {ds : List Derivation}
    (each : ∀ d ∈ ds, ∀ ⦃d'⦄, d.chars = d'.chars → d = d') :
    ∀ ⦃ds'⦄, ds.map chars = ds'.map chars → ds = ds' := by
  induction ds with
  | nil => exact fun ds' same => (List.map_eq_nil_iff.mp same.symm).symm
  | cons d ds ih =>
      intro ds' same
      cases ds' with
      | nil => simp at same
      | cons d' ds' =>
          obtain ⟨sameHead, sameTail⟩ := List.cons.inj same
          rw [each d (by simp) sameHead,
            ih (fun other member => each other (by simp [member])) sameTail]

theorem chars_injective : Function.Injective chars := by
  intro d
  induction d using Derivation.induction with
  | word before symbol after =>
      intro d' same
      cases d' with
      | word before' symbol' after' =>
          obtain ⟨rfl, sameSymbol, rfl⟩ :=
            padded_injective (isBare_symbol symbol) (isBare_symbol symbol') same
          rw [Subtype.ext (String.toList_inj.mp sameSymbol)]
      | bare => exact absurd same.symm (padded_spacedText_ne _ _ _ _ _ _ _ _)
      | applied => exact absurd same.symm (padded_spacedText_ne _ _ _ _ _ _ _ _)
  | bare before symbol between inside after =>
      intro d' same
      cases d' with
      | word => exact absurd same (padded_spacedText_ne _ _ _ _ _ _ _ _)
      | bare before' symbol' between' inside' after' =>
          obtain ⟨rfl, rfl, rfl, sameInside, rfl⟩ := padded_spacedText_injective same
          rw [Subtype.ext sameInside]
      | applied before' symbol' between' first others after' =>
          have inner := (padded_spacedText_injective same).2.2.2.1
          exact absurd (inner ▸ trim_blanks inside) (trim_operands_ne_nil first others)
  | applied before symbol between first others after here each =>
      intro d' same
      cases d' with
      | word => exact absurd same (padded_spacedText_ne _ _ _ _ _ _ _ _)
      | bare before' symbol' between' inside after' =>
          have inner := (padded_spacedText_injective same).2.2.2.1
          exact absurd (inner ▸ trim_blanks inside) (trim_operands_ne_nil first others)
      | applied before' symbol' between' first' others' after' =>
          rw [chars, chars] at same
          obtain ⟨rfl, rfl, rfl, inner, rfl⟩ := padded_spacedText_injective same
          have split := splitOperands_chars first others
          rw [inner, splitOperands_chars] at split
          obtain ⟨sameFirst, sameOthers⟩ := List.cons.inj (Except.ok.inj split)
          rw [here sameFirst.symm, map_chars_injective each sameOthers.symm]

theorem application_isMarker {ctx : Context} {symbol : String} {operands : List Expr} {e : Expr}
    (built : application ctx symbol operands = .ok e) : e.isMarker = decide (symbol = ellipsis) := by
  obtain ⟨kind, found, made⟩ := application_eq_ok_iff.mp built
  rw [eq_of_build made]
  rcases applicationKind_cases found with ⟨mark, rfl⟩ | ⟨ordinary, _, _, rfl⟩ | ⟨ordinary, _, rfl⟩
  · simp [isMarker, mark]
  · simp [isMarker, ordinary]
  · simp [isMarker, ordinary, operatorKind_ne_variadic]

theorem isMarker_of_value {ctx : Context} {d : Derivation} {e : Expr}
    (evaluated : d.value ctx = .ok e) : e.isMarker = d.isMark := by
  cases d with
  | word before symbol after =>
      obtain rfl := Except.ok.inj evaluated
      unfold leaf
      split
      all_goals rfl
  | bare before symbol between inside after => exact application_isMarker evaluated
  | applied before symbol between first others after =>
      rw [value] at evaluated
      obtain ⟨_, _, later⟩ := Attempt.bind_eq_ok.mp evaluated
      obtain ⟨_, _, built⟩ := Attempt.bind_eq_ok.mp later
      exact application_isMarker built

theorem exists_build_iff {kind : Kind} {symbol : String} {children : List Expr} :
    (∃ e, build kind symbol children = .ok e) ↔ shapeFault? kind children = none := by
  unfold build
  split
  · rename_i broken
    simp [broken]
  · rename_i fits
    simp [fits]

theorem exists_application_iff {ctx : Context} {symbol : String} {operands : List Expr} :
    (∃ e, application ctx symbol operands = .ok e) ↔
      (symbol = ellipsis → operands.map isMarker = [false]) ∧
        (true ∈ operands.map isMarker → operands.length = 1 ∧ symbol ∈ ctx.assocOps) := by
  unfold application
  split
  · rename_i mark
    split
    · rename_i one
      obtain ⟨operand, rfl⟩ := List.length_eq_one_iff.mp one
      rw [exists_build_iff, shapeFault?_eq_none_iff]
      simp +contextual [mark, countFault?]
    · rename_i several
      have other : operands.map isMarker ≠ [false] := fun same => several (by
        simpa using congrArg List.length same)
      simp [mark, other]
  · rename_i ordinary
    split
    · rename_i marked
      have inMarks : true ∈ operands.map isMarker := by simpa using marked
      split
      · rename_i one
        split
        · rename_i known
          rw [exists_build_iff, shapeFault?_eq_none_iff]
          simp [ordinary, one, known, countFault?]
        · rename_i unknown
          simp [inMarks, unknown]
      · rename_i several
        simp [inMarks, several]
    · rename_i unmarked
      have plain : ∀ operand ∈ operands, operand.isMarker = false := by
        simpa [List.any_eq_false] using unmarked
      rw [exists_build_iff, shapeFault?_eq_none_iff]
      simp +contextual [ordinary, countFault?_operatorKind, plain]

theorem map_isMarker_of_mapM_value {ctx : Context} {ds : List Derivation} {es : List Expr}
    (evaluated : ds.mapM (value ctx) = .ok es) : es.map isMarker = ds.map isMark := by
  induction ds generalizing es with
  | nil =>
      obtain rfl := Except.ok.inj evaluated
      rfl
  | cons d ds ih =>
      rw [List.mapM_cons] at evaluated
      obtain ⟨operand, here, later⟩ := Attempt.bind_eq_ok.mp evaluated
      obtain ⟨more, below, same⟩ := Attempt.bind_eq_ok.mp later
      obtain rfl := Except.ok.inj same
      rw [List.map_cons, List.map_cons, isMarker_of_value here, ih below]

/-- A derivation has a value just when its markers are well placed. -/
theorem exists_value_iff (ctx : Context) (d : Derivation) :
    (∃ e, d.value ctx = .ok e) ↔ d.WellPlaced ctx := by
  induction d using Derivation.induction with
  | word before symbol after => simp [value, WellPlaced]
  | bare before symbol between inside after =>
      rw [value, WellPlaced, exists_application_iff]
      simp
  | applied before symbol between first others after here each =>
      have placed : ∀ {es : List Expr}, es.map isMarker = (first :: others).map isMark →
          ((∃ e, application ctx symbol.1 es = .ok e) ↔
            (symbol.1 = ellipsis → others = [] ∧ first.isMark = false) ∧
              ∀ operand ∈ first :: others, operand.isMark = true →
                others = [] ∧ symbol.1 ∈ ctx.assocOps) := by
        intro es marks
        have count : es.length = others.length + 1 := by simpa using congrArg List.length marks
        rw [exists_application_iff, marks, count]
        refine and_congr (by simp [and_comm])
          ⟨fun alone operand member isMark => ?_, fun alone inside => ?_⟩
        · simpa using alone (List.mem_map.mpr ⟨operand, member, isMark⟩)
        · obtain ⟨operand, member, isMark⟩ := List.mem_map.mp inside
          simpa using alone operand member isMark
      have operands : (∃ es, (first :: others).mapM (value ctx) = .ok es) ↔
          first.WellPlaced ctx ∧ AreWellPlaced ctx others := by
        rw [Attempt.exists_mapM_eq_ok_iff, List.forall_mem_cons, here, areWellPlaced_iff]
        exact and_congr_right fun _ => forall₂_congr each
      rw [value_applied, WellPlaced, ← operands]
      constructor
      · rintro ⟨e, evaluated⟩
        obtain ⟨es, read, built⟩ := Attempt.bind_eq_ok.mp evaluated
        obtain ⟨alone, marked⟩ := (placed (map_isMarker_of_mapM_value read)).mp ⟨e, built⟩
        exact ⟨alone, marked, es, read⟩
      · rintro ⟨alone, marked, es, read⟩
        obtain ⟨e, built⟩ := (placed (map_isMarker_of_mapM_value read)).mpr ⟨alone, marked⟩
        exact ⟨e, Attempt.bind_eq_ok.mpr ⟨es, read, built⟩⟩

theorem wellPlaced_of_read {ctx : Context} {d : Derivation} {e : Expr}
    (read : appliedChars ctx d.chars = .ok e) : d.WellPlaced ctx :=
  (exists_value_iff ctx d).mp ⟨e, appliedChars_chars ctx d ▸ read⟩

/-- A text is read just when it has a derivation whose markers are well placed; it has one
derivation at most, and what is read is the tree that the derivation describes. -/
theorem applied_exact (ctx : Context) :
    Function.Injective chars ∧
      (∀ text : String, (∃ e, Parse.applied ctx text = .ok e) ↔
        ∃ d : Derivation, d.chars = text.toList ∧ d.WellPlaced ctx) ∧
      ∀ d : Derivation, Parse.applied ctx (String.ofList d.chars) = d.value ctx := by
  refine ⟨chars_injective, fun text => ?_, fun d => ?_⟩
  · constructor
    · rintro ⟨e, read⟩
      obtain ⟨d, same⟩ := exists_of_appliedChars read
      rw [Parse.applied, ← same] at read
      exact ⟨d, same, wellPlaced_of_read read⟩
    · rintro ⟨d, same, placed⟩
      rw [Parse.applied, ← same, appliedChars_chars]
      exact (exists_value_iff ctx d).mpr placed
  · rw [Parse.applied, String.toList_ofList]
    exact appliedChars_chars ctx d

end Derivation

end Stepwise.Parse
