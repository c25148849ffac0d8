import Stepwise.Expr.Display
import Stepwise.Proofs.Parse.RoundTrip

/-!
The tokens of the infix form. Scanning what an expression is displayed as yields them, whatever
follows it, if that does not continue a word.
-/

namespace Stepwise.Token

theorem scanChars_blank {c : Char} (blank : Text.isBlank c = true) (rest : List Char) :
    scanChars (c :: rest) = scanChars rest := by
  have trimmed : Text.trimLeft (c :: rest) = Text.trimLeft rest :=
    List.dropWhile_cons_of_pos blank
  cases parts : Text.trimLeft rest with
  | nil => rw [scanChars_of_blank parts, scanChars_of_blank (trimmed.trans parts)]
  | cons first more => rw [scanChars_of_trim parts, scanChars_of_trim (trimmed.trans parts)]

theorem scanChars_append {token rest : List Char} (nonempty : token ≠ [])
    (opens : ∀ c ∈ token.head?, Text.isBlank c = false) (longest : first (token ++ rest) = token) :
    scanChars (token ++ rest) = token :: scanChars rest := by
  obtain ⟨c, more, rfl⟩ := List.exists_cons_of_ne_nil nonempty
  have trimmed : Text.trimLeft (c :: (more ++ rest)) = c :: (more ++ rest) :=
    List.dropWhile_cons_of_neg (by simp [opens c rfl])
  rw [List.cons_append] at longest ⊢
  rw [scanChars_of_trim trimmed, longest]
  simp

def isMark (c : Char) : Bool := !Text.isBlank c && !isWordChar c && c ≠ '=' && c ≠ '.'

theorem isMark_of_mem {c : Char} (listed : c ∈ ['(', ')', ',', '+', '-', '*', '/']) :
    isMark c = true := by
  revert c
  simp [isMark, isWordChar, Text.isBlank, Text.inRanges, Text.blankRanges]

theorem scanChars_mark {c : Char} (mark : isMark c = true) (rest : List Char) :
    scanChars (c :: rest) = [c] :: scanChars rest := by
  simp only [isMark, Bool.and_eq_true, Bool.not_eq_true', decide_eq_true_eq] at mark
  obtain ⟨⟨⟨nonblank, noWord⟩, notEqual⟩, notDot⟩ := mark
  refine @scanChars_append [c] rest (by simp) (by simpa using nonblank) ?_
  rw [List.singleton_append, first.eq_4 _ _ (by simp [notEqual]) (by simp [notDot])]
  simp [noWord]

def EndsWord (rest : List Char) : Prop := ∀ c ∈ rest.head?, isWordChar c = false ∧ c ≠ '.'

theorem endsWord_nil : EndsWord [] := by simp [EndsWord]

theorem endsWord_cons {c : Char} (ends : isWordChar c = false ∧ c ≠ '.') (rest : List Char) :
    EndsWord (c :: rest) := by simpa [EndsWord] using ends

theorem isWordChar_of_isDigit {c : Char} (digit : c.isDigit = true) : isWordChar c = true := by
  simp [isWordChar, Char.isAlphanum, digit]

theorem EndsWord.span_append {rest : List Char} (ends : EndsWord rest) {p : Char → Bool}
    (within : ∀ c, p c = true → isWordChar c = true) (cs : List Char) :
    (cs ++ rest).takeWhile p = cs.takeWhile p ∧
      (cs ++ rest).dropWhile p = cs.dropWhile p ++ rest := by
  induction cs with
  | nil =>
      cases rest with
      | nil => simp
      | cons c rest =>
          have stops : ¬p c = true := fun continues => by
            simpa [(ends c rfl).1] using within c continues
          simp [stops]
  | cons c cs ih =>
      by_cases continues : p c = true
      · simp [continues, ih]
      · simp [continues]

theorem EndsWord.startsDecimal_append {rest : List Char} (ends : EndsWord rest) (cs : List Char) :
    startsDecimal (cs ++ rest) = startsDecimal cs := by
  match cs with
  | [] =>
      change startsDecimal rest = false
      unfold startsDecimal
      split
      · exact absurd rfl (ends '.' rfl).2
      · rfl
  | [c] =>
      cases rest with
      | nil => rfl
      | cons d rest =>
          have noDigit : d.isDigit = false := by
            rw [Bool.eq_false_iff]
            exact fun digit => by simpa [(ends d rfl).1] using isWordChar_of_isDigit digit
          by_cases point : c = '.'
          · rw [point]
            exact noDigit
          · simp [startsDecimal, point]
  | c :: d :: cs =>
      by_cases point : c = '.'
      · rw [point]
        rfl
      · simp [startsDecimal, point]

theorem EndsWord.word_append {rest : List Char} (ends : EndsWord rest) (cs : List Char) :
    word (cs ++ rest) = word cs := by
  obtain ⟨head, tail⟩ := ends.span_append (fun _ continues => continues) cs
  unfold word
  dsimp only
  rw [head, tail, ends.startsDecimal_append]
  split
  · rename_i decimal
    have nonempty : cs.dropWhile isWordChar ≠ [] := by
      intro none
      rw [none] at decimal
      simp [startsDecimal] at decimal
    have positive : 1 ≤ (cs.dropWhile isWordChar).length := List.length_pos_iff.mpr nonempty
    rw [List.drop_append_of_le_length positive,
      (ends.span_append (fun _ => isWordChar_of_isDigit) _).1]
  · rfl

theorem isBlank_of_isWordChar {c : Char} (isWord : isWordChar c = true) :
    Text.isBlank c = false :=
  ((Parse.isSymbolChar_iff c).mp (Parse.isSymbolChar_of_isWordChar isWord)).1

theorem scanChars_word {token : String} (isWord : Token.isWord token = true) {rest : List Char}
    (ends : EndsWord rest) :
    scanChars (token.toList ++ rest) = token.toList :: scanChars rest := by
  unfold Token.isWord at isWord
  split at isWord
  · simp at isWord
  · rename_i c more chars
    simp only [Bool.and_eq_true, decide_eq_true_eq] at isWord
    have nonblank := isBlank_of_isWordChar isWord.1
    have notMark : ∀ d : Char, isWordChar d = false → c ≠ d := by
      rintro d noWord rfl
      exact Bool.false_ne_true (noWord.symm.trans isWord.1)
    have longest := (ends.word_append (c :: more)).trans isWord.2
    rw [chars]
    refine scanChars_append (by simp) (by simpa using nonblank) ?_
    rw [List.cons_append] at longest ⊢
    rw [first.eq_4 _ _ (by simp [notMark '=' (by decide)])
      (by simp [notMark '.' (by decide)]), if_pos isWord.1, longest]

def ScannedAs (gap : List Char) (token : String) : Prop :=
  ∀ rest, scanChars (gap ++ rest) = token.toList :: scanChars rest

theorem scannedAs_comma : ScannedAs [',', ' '] "," := by
  intro rest
  exact (scanChars_mark (isMark_of_mem (by simp)) _).trans
    (congrArg _ (scanChars_blank Text.isBlank_space rest))

theorem scannedAs_operator {symbol : String}
    (known : symbol ∈ ["=", "=>", "+", "-", "*", "/"]) :
    ScannedAs (" " ++ symbol ++ " ").toList symbol := by
  intro rest
  have spelled : ∀ name ∈ ["=", "=>", "+", "-", "*", "/"], name.toList ≠ [] ∧
      name.toList.head?.any Text.isBlank = false := by
    simp [Text.isBlank, Text.inRanges, Text.blankRanges]
  have opens : ∀ c ∈ symbol.toList.head?, Text.isBlank c = false :=
    (Option.any_eq_false _ _).mp (spelled symbol known).2
  have longest : first (symbol.toList ++ ' ' :: rest) = symbol.toList := by
    simp only [List.mem_cons, List.not_mem_nil, or_false] at known
    rcases known with rfl | rfl | rfl | rfl | rfl | rfl
    all_goals rfl
  have separate := scanChars_append (spelled symbol known).1 opens longest
  rw [String.toList_append, String.toList_append, List.append_assoc, List.append_assoc]
  exact (scanChars_blank Text.isBlank_space _).trans
    (separate.trans (congrArg _ (scanChars_blank Text.isBlank_space rest)))

theorem endsWord_mark {c : Char} (mark : isMark c = true) (rest : List Char) :
    EndsWord (c :: rest) := by
  simp only [isMark, Bool.and_eq_true, Bool.not_eq_true', decide_eq_true_eq] at mark
  exact endsWord_cons ⟨mark.1.1.2, mark.2⟩ rest

end Stepwise.Token

namespace Stepwise.Expr

mutual

def displayTokens : Expr → List String
  | node .call symbol [] => [symbol, "(", ")"]
  | node .call symbol (first :: others) =>
      symbol :: "(" :: (displayTokens first ++ (tokensAfter "," others ++ [")"]))
  | node .unary symbol [operand] => "(" :: symbol :: (displayTokens operand ++ [")"])
  | node _ symbol [] => [symbol]
  | node _ symbol (first :: others) =>
      "(" :: (displayTokens first ++ (tokensAfter symbol others ++ [")"]))

def tokensAfter (separator : String) : List Expr → List String
  | [] => []
  | e :: rest => separator :: (displayTokens e ++ tokensAfter separator rest)

end

theorem infixEach_eq_map (es : List Expr) : infixEach true "" es = es.map display := by
  induction es with
  | nil => rfl
  | cons e es ih => rw [infixEach, ih]; rfl

end Stepwise.Expr

namespace Stepwise.Parse

open Stepwise.Expr Stepwise.Token

def spokenNodes (ctx : Context) (kind : Kind) (symbol : String) : Bool :=
  match kind with
  | .const => Token.isWord symbol && ctx.isConstant symbol
  | .var => Token.isWord symbol && !ctx.isConstant symbol
  | .call => Token.isWord symbol
  | .unary => isUnaryOperator ctx symbol
  | .binary => symbol ∈ ctx.binaryOps
  | .statement => symbol ∈ statementSymbols
  | .train => symbol ∈ ctx.assocOps
  | .variadic => true

structure Spoken (ctx : Context) (e : Expr) : Prop where
  formed : e.Formed (spokenNodes ctx)
  free : e.MarkerFree

section

variable {ctx : Context}

theorem Spoken.child {kind : Kind} {symbol : String} {children : List Expr}
    (spoken : Spoken ctx (node kind symbol children)) {child : Expr} (member : child ∈ children) :
    Spoken ctx child :=
  ⟨spoken.formed.child member, ((markerFree_node _ _ _).mp spoken.free).2 child member⟩

def isJoining (kind : Kind) : Bool := kind = .binary || kind = .statement || kind = .train

theorem displayTokens_joining {kind : Kind} (isJoined : isJoining kind = true) (symbol : String)
    (first : Expr) (others : List Expr) : (node kind symbol (first :: others)).displayTokens =
      "(" :: (first.displayTokens ++ (tokensAfter symbol others ++ [")"])) := by
  cases kind
  all_goals simp [isJoining] at isJoined
  all_goals rw [displayTokens]
  all_goals simp

theorem displayTokens_leaf (symbol : String) : (leaf ctx symbol).displayTokens = [symbol] := by
  unfold leaf
  split
  all_goals rfl

theorem Spoken.induction {P : Expr → Prop}
    (leaf : ∀ symbol, Token.isWord symbol = true → P (leaf ctx symbol))
    (call : ∀ symbol arguments, Token.isWord symbol = true → Spoken ctx (call symbol arguments) →
      (∀ argument ∈ arguments, P argument) → P (call symbol arguments))
    (unary : ∀ symbol operand, isUnaryOperator ctx symbol = true → P operand →
      P (unary symbol operand))
    (joining : ∀ kind symbol first others, isJoining kind = true →
      Spoken ctx (node kind symbol (first :: others)) → (∀ operand ∈ first :: others, P operand) →
        P (node kind symbol (first :: others)))
    {e : Expr} (spoken : Spoken ctx e) : P e := by
  induction e using Expr.induction with
  | node kind symbol children each =>
      obtain ⟨count, known⟩ := ((formed_node _ _ _).mp spoken.formed).1
      have below : ∀ child ∈ children, P child :=
        fun child member => each child member (spoken.child member)
      have joined : isJoining kind = true → P (node kind symbol children) := by
        intro isJoined
        cases children with
        | nil =>
            cases kind
            all_goals simp [isJoining, countFault?] at isJoined count
        | cons first others => exact joining kind symbol first others isJoined spoken below
      cases kind with
      | const =>
          simp only [spokenNodes, Bool.and_eq_true] at known
          have none : children = [] := by simpa [countFault?] using count
          have whole := leaf symbol known.1
          rw [Parse.leaf, if_pos known.2] at whole
          exact none ▸ whole
      | var =>
          simp only [spokenNodes, Bool.and_eq_true, Bool.not_eq_true'] at known
          have none : children = [] := by simpa [countFault?] using count
          have whole := leaf symbol known.1
          rw [Parse.leaf, if_neg (by simp [known.2])] at whole
          exact none ▸ whole
      | unary =>
          have one : children.length = 1 := by simpa [countFault?] using count
          obtain ⟨operand, rfl⟩ := List.length_eq_one_iff.mp one
          exact unary symbol operand known (below operand (by simp))
      | call => exact call symbol children known spoken below
      | variadic => exact absurd rfl ((markerFree_node _ _ _).mp spoken.free).1
      | binary => exact joined rfl
      | statement => exact joined rfl
      | train => exact joined rfl

end

/-! Scanning. -/

theorem toList_display_call (symbol : String) (arguments : List Expr) :
    (call symbol arguments).display.toList =
      symbol.toList ++ '(' :: ((Text.joined ", " (arguments.map display)).toList ++ [')']) := by
  rw [display, toInfix, call, infixMarked, infixEach_eq_map]
  simp

theorem toList_display_unary (symbol : String) (operand : Expr) :
    (unary symbol operand).display.toList =
      '(' :: (symbol.toList ++ (operand.display.toList ++ [')'])) := by
  rw [display, toInfix, unary, infixMarked, infixEach_eq_map]
  simp [enclosed, Text.joined]

theorem toList_display_joining {kind : Kind} {symbol : String} {operands : List Expr}
    (isJoined : isJoining kind = true) (plain : (node kind symbol operands).template? = none) :
    (node kind symbol operands).display.toList =
      '(' :: ((Text.joined (" " ++ symbol ++ " ") (operands.map display)).toList ++ [')']) := by
  have whole : (node kind symbol operands).display =
      enclosed true (Text.joined (" " ++ symbol ++ " ") (operands.map display)) := by
    rw [display, toInfix, ← infixEach_eq_map, infixMarked]
    case x_6 =>
      rintro mark template rfl rfl
      simp [template?] at plain
    all_goals
      rintro rfl
      simp [isJoining] at isJoined
  rw [whole]
  simp [enclosed]

def Scans (text : List Char) (tokens : List String) : Prop :=
  ∀ rest, EndsWord rest → scanChars (text ++ rest) = tokens.map String.toList ++ scanChars rest

theorem Scans.append {text more : List Char} {tokens others : List String}
    (first : Scans text tokens) (ends : ∀ rest, EndsWord rest → EndsWord (more ++ rest))
    (second : Scans more others) : Scans (text ++ more) (tokens ++ others) := by
  intro rest stop
  rw [List.append_assoc, first _ (ends rest stop), second rest stop, List.map_append,
    List.append_assoc]

theorem Scans.mark {c : Char} (mark : isMark c = true) {token : String} (same : token.toList = [c])
    {text : List Char} {tokens : List String} (scans : Scans text tokens) :
    Scans (c :: text) (token :: tokens) := by
  intro rest stop
  rw [List.cons_append, scanChars_mark mark, scans rest stop, List.map_cons, same,
    List.cons_append]

theorem Scans.enclosed {text : List Char} {tokens : List String} (scans : Scans text tokens) :
    Scans ('(' :: (text ++ [')'])) ("(" :: (tokens ++ [")"])) := by
  have closing : isMark ')' = true := isMark_of_mem (by simp)
  have closed : Scans [')'] [")"] :=
    Scans.mark closing rfl fun rest _ => rfl
  exact (scans.append (fun rest _ => endsWord_mark closing rest) closed).mark
    (isMark_of_mem (by simp)) rfl

theorem scans_after {separator : String} {gap : List Char} (scanned : ScannedAs gap separator)
    (ends : ∀ rest, EndsWord (gap ++ rest)) {operands : List Expr}
    (each : ∀ operand ∈ operands, Scans operand.display.toList operand.displayTokens) :
    Scans (((operands.map display).map String.toList).flatMap (gap ++ ·))
        (tokensAfter separator operands) ∧
      ∀ rest, EndsWord rest →
        EndsWord (((operands.map display).map String.toList).flatMap (gap ++ ·) ++ rest) := by
  induction operands with
  | nil => exact ⟨fun rest _ => rfl, fun rest stop => stop⟩
  | cons operand operands ih =>
      obtain ⟨later, stops⟩ := ih fun other member => each other (by simp [member])
      refine ⟨fun rest stop => ?_, fun rest _ => ?_⟩
      · have here := each operand (by simp) _ (stops rest stop)
        simp only [List.map_cons, List.flatMap_cons, List.append_assoc, tokensAfter,
          List.map_append, List.cons_append]
        rw [scanned, here, later rest stop]
      · simp only [List.map_cons, List.flatMap_cons, List.append_assoc]
        exact ends _

theorem scans_operands {separator token : String} (scanned : ScannedAs separator.toList token)
    (ends : ∀ rest, EndsWord (separator.toList ++ rest)) {first : Expr} {others : List Expr}
    (each : ∀ operand ∈ first :: others, Scans operand.display.toList operand.displayTokens) :
    Scans (Text.joined separator ((first :: others).map display)).toList
      (first.displayTokens ++ tokensAfter token others) := by
  obtain ⟨later, stops⟩ :=
    scans_after scanned ends fun operand member => each operand (List.mem_cons_of_mem first member)
  rw [List.map_cons, Text.toList_joined]
  exact (each first (by simp)).append stops later

theorem isUnaryOperator_arithmetic {parameters : List String} {token : String}
    (isUnary : isUnaryOperator (Context.arithmetic parameters) token = true) :
    token = "-" ∨ token = "/" := by
  simp only [isUnaryOperator, Context.arithmetic, Bool.and_eq_true] at isUnary
  simpa using isUnary.1

theorem isJoining_symbol {parameters : List String} {kind : Kind} {symbol : String}
    (isJoined : isJoining kind = true)
    (known : spokenNodes (Context.arithmetic parameters) kind symbol = true) :
    symbol ∈ ["=", "=>", "+", "-", "*", "/"] := by
  cases kind
  all_goals simp [isJoining] at isJoined
  all_goals
    simp only [spokenNodes, Context.arithmetic, statementSymbols, decide_eq_true_eq, List.mem_cons,
      List.not_mem_nil, or_false] at known ⊢
    grind

theorem scans_display {parameters : List String} {e : Expr}
    (spoken : Spoken (Context.arithmetic parameters) e) :
    Scans e.display.toList e.displayTokens := by
  refine spoken.induction (P := fun e => Scans e.display.toList e.displayTokens)
    ?leaf ?call ?unary ?joining
  case leaf =>
    intro symbol isWord
    have word : Scans symbol.toList [symbol] := fun rest stop => scanChars_word isWord stop
    unfold Parse.leaf
    split
    · exact word
    · have same : (var symbol).display = symbol := String.append_empty
      rw [same]
      exact word
  case call =>
    intro symbol arguments isWord _ each
    have word : Scans symbol.toList [symbol] := fun rest stop => scanChars_word isWord stop
    have opening : isMark '(' = true := isMark_of_mem (by simp)
    have comma : isMark ',' = true := isMark_of_mem (by simp)
    rw [toList_display_call]
    cases arguments with
    | nil =>
        have inner : Scans ([] : List Char) [] := fun rest _ => rfl
        exact word.append (fun rest _ => endsWord_mark opening _) inner.enclosed
    | cons first others =>
        have inner := @scans_operands ", " "," scannedAs_comma (fun _ => endsWord_mark comma _)
          first others each
        have whole := word.append (fun rest _ => endsWord_mark opening _) inner.enclosed
        rwa [List.append_assoc] at whole
  case unary =>
    intro symbol operand isUnary scans
    have marked : ∃ c, symbol.toList = [c] ∧ isMark c = true := by
      rcases isUnaryOperator_arithmetic isUnary with rfl | rfl
      · exact ⟨'-', rfl, isMark_of_mem (by simp)⟩
      · exact ⟨'/', rfl, isMark_of_mem (by simp)⟩
    obtain ⟨c, chars, mark⟩ := marked
    rw [toList_display_unary, chars]
    exact (scans.mark mark chars).enclosed
  case joining =>
    intro kind symbol first others isJoined spoken each
    have known := isJoining_symbol isJoined ((formed_node _ _ _).mp spoken.formed).1.2
    rw [toList_display_joining isJoined (template?_of_no_marker fun operand member =>
      (spoken.child member).free.isMarker_eq_false)]
    have gap : ∀ rest, EndsWord ((" " ++ symbol ++ " ").toList ++ rest) := by
      intro rest
      rw [String.toList_append, String.toList_append]
      exact endsWord_cons (c := ' ') (by decide) _
    have enclosed := (scans_operands (scannedAs_operator known) gap each).enclosed
    rw [List.append_assoc] at enclosed
    rw [displayTokens_joining isJoined]
    exact enclosed

end Stepwise.Parse
