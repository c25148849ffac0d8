import Mathlib.Data.List.TakeWhile
import Stepwise.Parse.Applied
import Stepwise.Proofs.Matching.Images
import Stepwise.Proofs.Parse.Node
import Stepwise.Proofs.Text

/-!
Reading the applied notation back. The text of a tree whose symbols are free of blanks,
parentheses and commas is read as that tree, if each of its nodes is the one that its context makes
of its symbol and its operands; and nothing but such trees is read.
-/

namespace Stepwise.Parse

open Stepwise.Expr

def isSymbolChar (c : Char) : Bool := !endsSymbol c && c ≠ '('

/-- What the applied notation can have as a symbol. -/
def IsSymbol (symbol : String) : Prop :=
  symbol.toList ≠ [] ∧ ∀ c ∈ symbol.toList, isSymbolChar c = true

instance (symbol : String) : Decidable (IsSymbol symbol) :=
  decidable_of_iff (symbol.toList ≠ [] ∧ symbol.toList.all isSymbolChar = true)
    (and_congr_right fun _ => List.all_eq_true)

theorem isSymbolChar_iff (c : Char) :
    isSymbolChar c = true ↔ Text.isBlank c = false ∧ c ≠ ')' ∧ c ≠ ',' ∧ c ≠ '(' := by
  simp [isSymbolChar, endsSymbol, and_assoc]

theorem isSymbol_ofList {cs : List Char} (nonempty : cs ≠ [])
    (each : ∀ c ∈ cs, isSymbolChar c = true) : IsSymbol (String.ofList cs) := by
  rw [IsSymbol, String.toList_ofList]
  exact ⟨nonempty, each⟩

theorem IsSymbol.exists_cons {symbol : String} (isSymbol : IsSymbol symbol) :
    ∃ c rest, symbol.toList = c :: rest ∧ Text.isBlank c = false := by
  obtain ⟨c, rest, parts⟩ := List.exists_cons_of_ne_nil isSymbol.1
  exact ⟨c, rest, parts, ((isSymbolChar_iff c).mp (isSymbol.2 c (by simp [parts]))).1⟩

theorem IsSymbol.unopened {symbol : String} (isSymbol : IsSymbol symbol) :
    ∀ c ∈ symbol.toList, c ≠ '(' :=
  fun c member => ((isSymbolChar_iff c).mp (isSymbol.2 c member)).2.2.2

theorem IsSymbol.unended {symbol : String} (isSymbol : IsSymbol symbol) :
    symbol.toList.any endsSymbol = false := by
  rw [List.any_eq_false]
  intro c member
  have plain := isSymbol.2 c member
  simp only [isSymbolChar, Bool.and_eq_true, Bool.not_eq_true'] at plain
  simp [plain.1]

theorem IsSymbol.isWord {symbol : String} (isSymbol : IsSymbol symbol) : Text.IsWord symbol :=
  ⟨isSymbol.1, fun c member => ((isSymbolChar_iff c).mp (isSymbol.2 c member)).1⟩

theorem trim_symbol {symbol : String} (isSymbol : IsSymbol symbol) :
    Text.trim symbol.toList = symbol.toList := isSymbol.isWord.isTrimmed.trim

def PassedAt (depth : Nat) (text : List Char) : Prop :=
  ∀ part rest,
    splitOperands depth part (text ++ rest) = splitOperands depth (text.reverse ++ part) rest

theorem passedAt_singleton {depth : Nat} {c : Char} (notOpening : c ≠ '(') (notClosing : c ≠ ')')
    (notSeparating : c = ',' → depth ≠ 0) : PassedAt depth [c] := by
  intro part rest
  have inside : ¬(c = ',' ∧ depth = 0) := fun separates => notSeparating separates.1 separates.2
  rw [List.singleton_append, splitOperands.eq_5 _ _ _ _ notOpening notClosing, if_neg inside]
  rfl

theorem PassedAt.append {depth : Nat} {first second : List Char} (one : PassedAt depth first)
    (two : PassedAt depth second) : PassedAt depth (first ++ second) := by
  intro part rest
  rw [List.append_assoc, one, two, List.reverse_append, List.append_assoc]

theorem passedAt_plain {cs : List Char} (each : ∀ c ∈ cs, c ≠ '(' ∧ c ≠ ')' ∧ c ≠ ',')
    (depth : Nat) : PassedAt depth cs := by
  induction cs with
  | nil => exact fun part rest => rfl
  | cons c cs ih =>
      obtain ⟨notOpening, notClosing, notComma⟩ := each c (by simp)
      have first : PassedAt depth [c] :=
        passedAt_singleton notOpening notClosing fun separates => absurd separates notComma
      exact first.append (ih fun other member => each other (by simp [member]))

theorem passedAt_symbol {cs : List Char} (each : ∀ c ∈ cs, isSymbolChar c = true) (depth : Nat) :
    PassedAt depth cs := by
  refine passedAt_plain (fun c member => ?_) depth
  obtain ⟨_, notClosing, notComma, notOpening⟩ := (isSymbolChar_iff c).mp (each c member)
  exact ⟨notOpening, notClosing, notComma⟩

theorem PassedAt.enclosed {depth : Nat} {text : List Char} (inside : PassedAt (depth + 1) text) :
    PassedAt depth ('(' :: (text ++ [')'])) := by
  intro part rest
  rw [List.cons_append, splitOperands, List.append_assoc, inside, List.singleton_append,
    splitOperands]
  simp

theorem passedAt_joined {texts : List String} {depth : Nat}
    (each : ∀ text ∈ texts, PassedAt (depth + 1) text.toList) :
    PassedAt (depth + 1) (Text.joined "," texts).toList := by
  induction texts with
  | nil => exact fun part rest => rfl
  | cons first texts ih =>
      cases texts with
      | nil => exact each first (by simp)
      | cons second rest =>
          have comma : PassedAt (depth + 1) [','] :=
            passedAt_singleton (by decide) (by decide) fun _ => by omega
          rw [Text.toList_joined_cons]
          exact (each first (by simp)).append
            (comma.append (ih fun text member => each text (by simp [member])))

theorem splitOperands_flatMap {first : List Char} {others : List (List Char)}
    (firstPassed : PassedAt 0 first) (each : ∀ other ∈ others, PassedAt 0 other) :
    splitOperands 0 [] (first ++ others.flatMap (',' :: ·)) = .ok (first :: others) := by
  induction others generalizing first with
  | nil =>
      have read := firstPassed [] []
      rw [List.append_nil, List.append_nil, splitOperands, if_pos rfl, List.reverse_reverse]
        at read
      rwa [List.flatMap_nil, List.append_nil]
  | cons second others ih =>
      have more := ih (each second (by simp)) fun other member => each other (by simp [member])
      rw [List.flatMap_cons, List.cons_append, firstPassed, List.append_nil,
        splitOperands.eq_5 _ _ _ _ (by decide) (by decide), if_pos ⟨rfl, rfl⟩, more]
      simp

theorem splitOperands_eq_ok {depth : Nat} {part cs : List Char} {parts : List (List Char)}
    (split : splitOperands depth part cs = .ok parts) :
    ∃ first others, parts = first :: others ∧
      part.reverse ++ cs = first ++ others.flatMap (',' :: ·) := by
  fun_induction splitOperands depth part cs generalizing parts with
  | case1 part => exact ⟨part.reverse, [], (Except.ok.inj split).symm, by simp⟩
  | case2 => simp at split
  | case3 depth part rest ih => simpa using ih split
  | case4 => simp at split
  | case5 part rest outer ih => simpa using ih split
  | case6 depth part c rest _ _ separates more read ih =>
      obtain ⟨second, others, rfl, same⟩ := ih read
      refine ⟨part.reverse, second :: others, (Except.ok.inj split).symm, ?_⟩
      rw [List.reverse_nil, List.nil_append] at same
      rw [same, separates.1, List.flatMap_cons, List.cons_append]
  | case7 => simp at split
  | case8 depth part c rest _ _ _ ih => simpa using ih split

section

variable (ctx : Context) {symbol : String}

theorem appliedChars_eq (text : List Char) :
    appliedChars ctx text =
      let cs := Text.trim text
      let symbol := Text.trim (cs.takeWhile (· ≠ '('))
      if cs = [] then .error (.parse .empty)
      else if '(' ∉ cs then
        if cs.any endsSymbol then .error (.parse (.invalidSymbol (String.ofList cs)))
        else .ok (leaf ctx (String.ofList cs))
      else if symbol = [] ∨ symbol.any endsSymbol then
        .error (.parse (.invalidOperator (String.ofList cs)))
      else if cs.getLast? ≠ some ')' then .error (.parse (.trailingText (String.ofList cs)))
      else if Text.trim (innerText cs) = [] then application ctx (String.ofList symbol) []
      else splitOperands 0 [] (innerText cs) >>= fun parts =>
        parts.mapM (appliedChars ctx) >>= application ctx (String.ofList symbol) := by
  rw [appliedChars]
  dsimp only
  refine dite_congr rfl (fun _ => rfl) fun _ => ite_congr rfl (fun _ => rfl) fun _ => ?_
  refine ite_congr rfl (fun _ => rfl) fun _ => ite_congr rfl (fun _ => rfl) fun _ => ?_
  refine ite_congr rfl (fun _ => rfl) fun _ => ?_
  split
  · rename_i fault failed
    rw [failed]
    rfl
  · rename_i parts read
    rw [List.mapM_subtype (fun _ _ => rfl), List.unattach_attach, read]
    rfl

theorem appliedChars_padded {before after : List Char}
    (blankBefore : ∀ c ∈ before, Text.isBlank c = true) (cs : List Char)
    (blankAfter : ∀ c ∈ after, Text.isBlank c = true) :
    appliedChars ctx (before ++ (cs ++ after)) = appliedChars ctx cs := by
  rw [appliedChars_eq, appliedChars_eq, Text.trim_padded blankBefore cs blankAfter]

theorem appliedChars_symbol (isSymbol : IsSymbol symbol) :
    appliedChars ctx symbol.toList = .ok (leaf ctx symbol) := by
  have unopened : '(' ∉ symbol.toList := fun member => isSymbol.unopened _ member rfl
  rw [appliedChars_eq, trim_symbol isSymbol]
  dsimp only
  rw [if_neg isSymbol.1, if_pos unopened, isSymbol.unended, String.ofList_toList]
  rfl

def spacedText (symbol : String) (between inner : List Char) : List Char :=
  symbol.toList ++ (between ++ '(' :: (inner ++ [')']))

theorem getLast?_spacedText (symbol : String) (between inner : List Char) :
    (spacedText symbol between inner).getLast? = some ')' := by
  rw [spacedText, ← List.cons_append, ← List.append_assoc, ← List.append_assoc,
    List.getLast?_concat]

theorem trim_spacedText (isSymbol : IsSymbol symbol) (between inner : List Char) :
    Text.trim (spacedText symbol between inner) = spacedText symbol between inner := by
  obtain ⟨first, rest, parts, opens⟩ := isSymbol.exists_cons
  exact Text.trim_eq_self (by simp [spacedText, parts]) (getLast?_spacedText symbol between inner)
    opens (Text.isBlank_of_delimiter (by simp))

theorem unopened_spaced (isSymbol : IsSymbol symbol) {between : List Char}
    (blank : ∀ c ∈ between, Text.isBlank c = true) : ∀ c ∈ symbol.toList ++ between, c ≠ '(' := by
  intro c member
  rcases List.mem_append.mp member with inSymbol | inBetween
  · exact isSymbol.unopened c inSymbol
  · rintro rfl
    simpa [Text.isBlank_of_delimiter] using blank _ inBetween

theorem takeWhile_spacedText (isSymbol : IsSymbol symbol) {between : List Char}
    (blank : ∀ c ∈ between, Text.isBlank c = true) (inner : List Char) :
    (spacedText symbol between inner).takeWhile (· ≠ '(') = symbol.toList ++ between := by
  rw [spacedText, ← List.append_assoc,
    List.takeWhile_append_of_pos (by simpa using unopened_spaced isSymbol blank)]
  simp

theorem innerText_spacedText (isSymbol : IsSymbol symbol) {between : List Char}
    (blank : ∀ c ∈ between, Text.isBlank c = true) (inner : List Char) :
    innerText (spacedText symbol between inner) = inner := by
  rw [innerText, spacedText, ← List.append_assoc,
    List.dropWhile_append_of_pos (by simpa using unopened_spaced isSymbol blank)]
  simp

theorem appliedChars_spacedText (isSymbol : IsSymbol symbol) {between : List Char}
    (blank : ∀ c ∈ between, Text.isBlank c = true) (inner : List Char) :
    appliedChars ctx (spacedText symbol between inner) =
      if Text.trim inner = [] then application ctx symbol []
      else splitOperands 0 [] inner >>= fun parts =>
        parts.mapM (appliedChars ctx) >>= application ctx symbol := by
  have hasOperands : '(' ∈ spacedText symbol between inner := by simp [spacedText]
  have operator : ¬(symbol.toList = [] ∨ symbol.toList.any endsSymbol = true) := by
    simp [isSymbol.1, isSymbol.unended]
  have name : Text.trim (symbol.toList ++ between) = symbol.toList :=
    (@Text.trim_padded [] between (by simp) symbol.toList blank).trans (trim_symbol isSymbol)
  rw [appliedChars_eq, trim_spacedText isSymbol]
  dsimp only
  rw [takeWhile_spacedText isSymbol blank, name, innerText_spacedText isSymbol blank,
    String.ofList_toList]
  rw [if_neg (List.ne_nil_of_mem hasOperands), if_neg fun absent => absent hasOperands,
    if_neg operator, if_neg fun other => other (getLast?_spacedText symbol between inner)]

def applicationText (symbol : String) (inner : List Char) : List Char :=
  symbol.toList ++ '(' :: (inner ++ [')'])

theorem appliedChars_applicationText (isSymbol : IsSymbol symbol) (inner : List Char) :
    appliedChars ctx (applicationText symbol inner) =
      if Text.trim inner = [] then application ctx symbol []
      else splitOperands 0 [] inner >>= fun parts =>
        parts.mapM (appliedChars ctx) >>= application ctx symbol :=
  @appliedChars_spacedText ctx symbol isSymbol [] (by simp) inner

end

/-! Trees that the notation can write. -/

/-- Each node is the one that the context makes of its symbol and its operands. -/
inductive Notated (ctx : Context) : Expr → Prop
  | leaf {symbol : String} : IsSymbol symbol → Notated ctx (leaf ctx symbol)
  | application {symbol : String} {operands : List Expr} {e : Expr} : IsSymbol symbol →
      (∀ operand ∈ operands, Notated ctx operand) → application ctx symbol operands = .ok e →
      Notated ctx e

section

variable {ctx : Context}

theorem applied_leaf (symbol : String) : (leaf ctx symbol).applied = symbol := by
  unfold leaf
  split
  all_goals rfl

theorem application_node {symbol : String} {operands : List Expr} {e : Expr}
    (built : application ctx symbol operands = .ok e) :
    ∃ kind, kind.isLeaf = false ∧ e = node kind symbol operands := by
  obtain ⟨kind, found, made⟩ := application_eq_ok_iff.mp built
  refine ⟨kind, ?_, eq_of_build made⟩
  rcases applicationKind_cases found with ⟨_, rfl⟩ | ⟨_, _, _, rfl⟩ | ⟨_, _, rfl⟩
  · rfl
  · rfl
  · rcases operatorKind_cases ctx symbol operands.length with
      ⟨same, _⟩ | ⟨same | same, _⟩ | ⟨same, _⟩ | same
    all_goals rw [same]; rfl

theorem appliedEach_eq_map (es : List Expr) : appliedEach es = es.map Expr.applied := by
  induction es with
  | nil => rfl
  | cons e es ih => simp [appliedEach, ih]

theorem toList_applied_node {kind : Kind} (inner : kind.isLeaf = false) (symbol : String)
    (operands : List Expr) :
    (node kind symbol operands).applied.toList =
      applicationText symbol (Text.joined "," (operands.map Expr.applied)).toList := by
  cases kind with
  | const => simp [Kind.isLeaf] at inner
  | var => simp [Kind.isLeaf] at inner
  | _ => simp [Expr.applied, appliedEach_eq_map, applicationText]

theorem Notated.passedAt {e : Expr} (notated : Notated ctx e) (depth : Nat) :
    PassedAt depth e.applied.toList := by
  induction notated generalizing depth with
  | leaf isSymbol =>
      rw [applied_leaf]
      exact passedAt_symbol isSymbol.2 depth
  | application isSymbol _ built ih =>
      obtain ⟨kind, inner, rfl⟩ := application_node built
      rw [toList_applied_node inner]
      refine (passedAt_symbol isSymbol.2 depth).append (passedAt_joined ?_).enclosed
      simp only [List.mem_map]
      rintro _ ⟨operand, member, rfl⟩
      exact ih operand member (depth + 1)

theorem Notated.exists_nonblank {e : Expr} (notated : Notated ctx e) :
    ∃ c ∈ e.applied.toList, Text.isBlank c = false := by
  have within : ∀ symbol : String, IsSymbol symbol →
      ∃ c ∈ symbol.toList, Text.isBlank c = false := by
    intro symbol isSymbol
    obtain ⟨c, rest, parts, nonblank⟩ := isSymbol.exists_cons
    exact ⟨c, by simp [parts], nonblank⟩
  cases notated with
  | leaf isSymbol =>
      rw [applied_leaf]
      exact within _ isSymbol
  | application isSymbol _ built =>
      obtain ⟨kind, inner, rfl⟩ := application_node built
      obtain ⟨c, member, nonblank⟩ := within _ isSymbol
      rw [toList_applied_node inner]
      exact ⟨c, List.mem_append_left _ member, nonblank⟩

theorem Notated.read_back {e : Expr} (notated : Notated ctx e) :
    appliedChars ctx e.applied.toList = .ok e := by
  induction notated with
  | leaf isSymbol =>
      rw [applied_leaf]
      exact appliedChars_symbol ctx isSymbol
  | @application symbol operands e isSymbol each built ih =>
      obtain ⟨kind, inner, rfl⟩ := application_node built
      rw [toList_applied_node inner, appliedChars_applicationText ctx isSymbol]
      cases operands with
      | nil => simpa [Text.joined, Text.trim, Text.trimLeft, Text.trimRight] using built
      | cons first rest =>
          obtain ⟨c, inFirst, nonblank⟩ := (each first (by simp)).exists_nonblank
          have nonempty := Text.trim_ne_nil
            (Text.mem_joined "," (List.mem_map_of_mem (List.mem_cons_self (a := first) (l := rest)))
              inFirst) nonblank
          have split : splitOperands 0 []
              (Text.joined "," ((first :: rest).map Expr.applied)).toList =
                .ok (((first :: rest).map Expr.applied).map String.toList) := by
            rw [List.map_cons, Text.toList_joined, (rfl : ",".toList = [','])]
            refine splitOperands_flatMap ((each first (by simp)).passedAt 0) ?_
            simp only [List.mem_map]
            rintro _ ⟨_, ⟨operand, member, rfl⟩, rfl⟩
            exact (each operand (by simp [member])).passedAt 0
          have read : ((first :: rest).map fun operand => operand.applied.toList).mapM
              (appliedChars ctx) = .ok (first :: rest) := by
            rw [List.mapM_map]
            exact (mapM_eq_ok _ id (first :: rest) ih).trans (congrArg _ (List.map_id _))
          rw [if_neg nonempty, split, List.map_map]
          change (_ >>= Parse.application ctx symbol) = _
          exact Attempt.bind_eq_ok.mpr ⟨_, read, built⟩

theorem splitOperands_ends (depth : Nat) (part cs : List Char) :
    (splitOperands depth part cs).Ends (fun _ => True) Fault.IsParse := by
  fun_induction splitOperands depth part cs with
  | case1 => trivial
  | case2 => exact ⟨_, rfl⟩
  | case3 _ _ _ ih => exact ih
  | case4 => exact ⟨_, rfl⟩
  | case5 _ _ _ ih => exact ih
  | case6 => trivial
  | case7 _ _ _ _ _ _ _ _ failed ih => exact ih.fault failed
  | case8 _ _ _ _ _ _ _ ih => exact ih

theorem isSymbolChar_of_unended {cs : List Char} (unended : ¬cs.any endsSymbol = true)
    (unopened : ∀ c ∈ cs, c ≠ '(') : ∀ c ∈ cs, isSymbolChar c = true := by
  intro c member
  have plain : endsSymbol c = false := by
    rw [Bool.eq_false_iff]
    exact fun ends => unended (List.any_eq_true.mpr ⟨c, member, ends⟩)
  simp [isSymbolChar, plain, unopened c member]

theorem isSymbol_operator {cs : List Char}
    (operator : ¬(Text.trim (cs.takeWhile (· ≠ '(')) = [] ∨
      (Text.trim (cs.takeWhile (· ≠ '('))).any endsSymbol = true)) :
    IsSymbol (String.ofList (Text.trim (cs.takeWhile (· ≠ '(')))) := by
  rw [not_or] at operator
  refine isSymbol_ofList operator.1 (isSymbolChar_of_unended operator.2 fun c member => ?_)
  simpa using List.all_eq_true.mp List.all_takeWhile c (Text.mem_of_mem_trim member)

theorem appliedChars_ends (ctx : Context) (text : List Char) :
    (appliedChars ctx text).Ends (Notated ctx) Fault.IsUnread := by
  generalize size : text.length = bound
  induction bound using Nat.strongRecOn generalizing text with
  | ind bound ih =>
      have applies {symbol : String} (isSymbol : IsSymbol symbol) {operands : List Expr}
          (each : ∀ operand ∈ operands, Notated ctx operand) :
          (application ctx symbol operands).Ends (Notated ctx) Fault.IsUnread :=
        (application_unread ctx symbol operands).imp
          (fun _ built _ => .application isSymbol each built) fun _ unread => unread
      rw [appliedChars_eq]
      dsimp only
      split
      · exact isUnread_parse _
      · rename_i nonblank
        split
        · rename_i unopened
          split
          · exact isUnread_parse _
          · rename_i unended
            exact .leaf (isSymbol_ofList nonblank
              (isSymbolChar_of_unended unended fun c member same => unopened (same ▸ member)))
        · split
          · exact isUnread_parse _
          · rename_i operator
            have isSymbol := isSymbol_operator operator
            split
            · exact isUnread_parse _
            · split
              · exact applies isSymbol (by simp)
              · refine Attempt.Ends.bind ((splitOperands_ends 0 [] _).imp_fault
                  fun _ cause => Or.inl cause) fun parts read _ => ?_
                refine (Attempt.ends_mapM (P := Notated ctx) fun part member => ?_).bind
                  fun operands _ each => applies isSymbol each.2
                have shorter := length_operand text part parts nonblank read member
                exact ih part.length (size ▸ shorter) part rfl

end

end Stepwise.Parse
