import Stepwise.Proofs.NormalForm.Chained
import Stepwise.Proofs.Parse.Regular
import Stepwise.Proofs.Parse.Tokens

/-!
The infix form is read back. Every application is displayed in parentheses, so each operand ends
where its tokens end; a train comes back as a chain, which flattening makes a train again.
-/

namespace Stepwise.Parse

open Stepwise.Expr

def ReadsAs {α : Type} {input : List String} (attempt : Attempt (Reading α input)) (value : α)
    (rest : List String) : Prop :=
  ∃ shorter, attempt = .ok ⟨value, rest, shorter⟩

def ContinuesAs {input : List String} (attempt : Attempt (Continuation Expr input)) (value : Expr)
    (rest : List String) : Prop :=
  ∃ bounded, attempt = .ok ⟨value, rest, bounded⟩

section

variable {ctx : Context} {strength : Nat}

theorem operation_readsAs {tokens middle rest : List String} {left value : Expr}
    (first : ReadsAs (operand ctx tokens) left middle)
    (all : ContinuesAs (operators ctx strength left middle) value rest) :
    ReadsAs (operation ctx strength tokens) value rest := by
  obtain ⟨shorter, read⟩ := first
  obtain ⟨bounded, done⟩ := all
  refine ⟨Nat.lt_of_le_of_lt bounded shorter, ?_⟩
  rw [operation, read]
  simp only [done]

def Stops (ctx : Context) (strength : Nat) (rest : List String) : Prop :=
  ∀ token ∈ rest.head?, ¬(isInfixOperator ctx token = true ∧ strength ≤ precedence token)

theorem operators_stop {rest : List String} (stops : Stops ctx strength rest) (left : Expr) :
    ContinuesAs (operators ctx strength left rest) left rest := by
  refine ⟨Nat.le_refl _, ?_⟩
  cases rest with
  | nil => rw [operators]
  | cons token rest => rw [operators, if_neg (stops token rfl)]

theorem operators_step {symbol : String} {tokens middle rest : List String} {left right value : Expr}
    (isInfix : isInfixOperator ctx symbol = true) (strong : strength ≤ precedence symbol)
    (plain : tokens.head? ≠ some ellipsis)
    (read : ReadsAs (operation ctx (precedence symbol + 1) tokens) right middle)
    (all : ContinuesAs (operators ctx strength (infixNode ctx symbol left right) middle) value rest) :
    ContinuesAs (operators ctx strength left (symbol :: tokens)) value rest := by
  obtain ⟨shorter, read⟩ := read
  obtain ⟨bounded, done⟩ := all
  refine ⟨Nat.le_succ_of_le (Nat.le_of_lt (Nat.lt_of_le_of_lt bounded shorter)), ?_⟩
  rw [operators, if_pos ⟨isInfix, strong⟩, if_neg plain, read]
  simp only [done]

theorem operand_enclosed {tokens rest : List String} {value : Expr}
    (ordinary : isUnaryOperator ctx "(" = false)
    (read : ReadsAs (operation ctx 0 tokens) value (")" :: rest)) :
    ReadsAs (operand ctx ("(" :: tokens)) value rest := by
  obtain ⟨shorter, read⟩ := read
  refine ⟨Nat.lt_succ_of_lt (Nat.lt_of_succ_lt shorter), ?_⟩
  rw [operand, ordinary]
  simp [read]

theorem operand_unary {symbol : String} {tokens rest : List String} {value : Expr}
    (isUnary : isUnaryOperator ctx symbol = true) (read : ReadsAs (operand ctx tokens) value rest) :
    ReadsAs (operand ctx (symbol :: tokens)) (.unary symbol value) rest := by
  obtain ⟨shorter, read⟩ := read
  refine ⟨Nat.lt_succ_of_lt shorter, ?_⟩
  rw [operand, if_pos isUnary, read]

theorem isWord_ne_parenthesis {token : String} (isWord : Token.isWord token = true) :
    token ≠ "(" := by
  rintro rfl
  exact absurd isWord (by decide +kernel)

theorem not_isUnaryOperator {token : String} (isWord : Token.isWord token = true) :
    ¬isUnaryOperator ctx token = true := by
  simp [isUnaryOperator, isWord]

theorem operand_leaf {symbol : String} (isWord : Token.isWord symbol = true) {rest : List String}
    (plain : rest.head? ≠ some "(") :
    ReadsAs (operand ctx (symbol :: rest)) (leaf ctx symbol) rest := by
  refine ⟨Nat.lt_succ_self _, ?_⟩
  rw [operand, if_neg (not_isUnaryOperator isWord), if_neg (isWord_ne_parenthesis isWord),
    if_pos isWord, if_neg plain]

theorem operand_call {symbol : String} (isWord : Token.isWord symbol = true)
    {tokens rest : List String} {values : List Expr} {e : Expr}
    (read : ReadsAs (arguments ctx tokens) values rest)
    (built : application ctx symbol values = .ok e) :
    ReadsAs (operand ctx (symbol :: "(" :: tokens)) e rest := by
  obtain ⟨shorter, read⟩ := read
  refine ⟨Nat.lt_succ_of_lt (Nat.lt_succ_of_lt shorter), ?_⟩
  rw [operand, if_neg (not_isUnaryOperator isWord), if_neg (isWord_ne_parenthesis isWord),
    if_pos isWord, if_pos List.head?_cons]
  simp only [List.tail_cons, read, built]

theorem argumentList_last {tokens rest : List String} {value : Expr}
    (read : ReadsAs (operation ctx 0 tokens) value (")" :: rest)) :
    ReadsAs (argumentList ctx tokens) [value] rest := by
  obtain ⟨shorter, read⟩ := read
  refine ⟨Nat.lt_of_succ_lt shorter, ?_⟩
  rw [argumentList, read]
  simp

theorem argumentList_more {tokens middle rest : List String} {value : Expr} {values : List Expr}
    (read : ReadsAs (operation ctx 0 tokens) value ("," :: middle))
    (more : ReadsAs (argumentList ctx middle) values rest) :
    ReadsAs (argumentList ctx tokens) (value :: values) rest := by
  obtain ⟨shorter, read⟩ := read
  obtain ⟨fewer, more⟩ := more
  refine ⟨Nat.lt_trans fewer (Nat.lt_of_succ_lt shorter), ?_⟩
  rw [argumentList, read]
  simp [more]

theorem arguments_none (rest : List String) :
    ReadsAs (arguments ctx (")" :: rest)) [] rest := by
  refine ⟨Nat.lt_succ_self _, ?_⟩
  rw [arguments]

theorem arguments_some {tokens rest : List String} {values : List Expr}
    (plain : tokens.head? ≠ some ")") (read : ReadsAs (argumentList ctx tokens) values rest) :
    ReadsAs (arguments ctx tokens) values rest := by
  obtain ⟨shorter, read⟩ := read
  refine ⟨shorter, ?_⟩
  rw [arguments.eq_2 _ _ (by
    rintro after rfl
    exact plain rfl), read]

end

/-! What the tokens of an expression are read as. -/

section

variable {parameters : List String}

theorem isInfixOperator_arithmetic {token : String} :
    isInfixOperator (Context.arithmetic parameters) token = true ↔
      token ∈ ["=", "=>", "+", "-", "*", "/"] := by
  simp only [isInfixOperator, statementSymbols, Context.arithmetic, Bool.or_eq_true,
    decide_eq_true_eq, List.mem_cons, List.not_mem_nil, or_false]
  grind

theorem ne_opening {symbol : String}
    (isInfix : isInfixOperator (Context.arithmetic parameters) symbol = true) : symbol ≠ "(" := by
  rintro rfl
  simp [isInfixOperator_arithmetic] at isInfix

theorem infixNode_binary {symbol : String}
    (known : symbol ∈ (Context.arithmetic parameters).binaryOps) :
    infixNode (Context.arithmetic parameters) symbol = binary symbol := by
  have noStatement : ∀ name ∈ ["+", "-", "*", "/"], name ∉ statementSymbols := by decide
  funext left right
  rw [infixNode, if_neg (noStatement symbol known), if_pos known]

theorem opening_ordinary : isUnaryOperator (Context.arithmetic parameters) "(" = false := by
  simp [isUnaryOperator, Context.arithmetic]

theorem stops_mark {mark : String} (closing : mark = ")" ∨ mark = ",") (strength : Nat)
    (rest : List String) : Stops (Context.arithmetic parameters) strength (mark :: rest) := by
  rintro token ⟨⟩ ⟨isInfix, _⟩
  rw [isInfixOperator_arithmetic] at isInfix
  rcases closing with rfl | rfl
  all_goals simp at isInfix

theorem head_displayTokens {e : Expr} (spoken : Spoken (Context.arithmetic parameters) e) :
    ∃ token more, e.displayTokens = token :: more ∧ (token = "(" ∨ Token.isWord token = true) := by
  refine spoken.induction (P := fun e => ∃ token more, e.displayTokens = token :: more ∧
    (token = "(" ∨ Token.isWord token = true)) ?_ ?_ ?_ ?_
  · exact fun symbol isWord => ⟨symbol, [], displayTokens_leaf symbol, Or.inr isWord⟩
  · intro symbol arguments isWord _ _
    cases arguments with
    | nil => exact ⟨symbol, _, rfl, Or.inr isWord⟩
    | cons first others => exact ⟨symbol, _, rfl, Or.inr isWord⟩
  · exact fun symbol operand _ _ => ⟨"(", _, rfl, Or.inl rfl⟩
  · exact fun kind symbol first others isJoined _ _ =>
      ⟨"(", _, displayTokens_joining isJoined symbol first others, Or.inl rfl⟩

theorem head_ne {e : Expr} (spoken : Spoken (Context.arithmetic parameters) e)
    {other : String} (notOpening : other ≠ "(") (noWord : Token.isWord other = false)
    (rest : List String) : (e.displayTokens ++ rest).head? ≠ some other := by
  obtain ⟨token, more, tokens, opens⟩ := head_displayTokens spoken
  rw [tokens, List.cons_append, List.head?_cons, ne_eq, Option.some.injEq]
  rintro rfl
  rcases opens with same | isWord
  · exact notOpening same
  · simp [noWord] at isWord

def ReadBack (parameters : List String) (e : Expr) : Prop :=
  ∀ rest : List String, rest.head? ≠ some "(" →
    ReadsAs (operand (Context.arithmetic parameters) (e.displayTokens ++ rest)) e.chained rest

theorem head_tokensAfter {separator : String} (separates : separator ≠ "(") (es : List Expr)
    {rest : List String} (plain : rest.head? ≠ some "(") :
    (tokensAfter separator es ++ rest).head? ≠ some "(" := by
  cases es with
  | nil => exact plain
  | cons e es => simpa [tokensAfter] using separates

theorem operators_chain {symbol : String}
    (isInfix : isInfixOperator (Context.arithmetic parameters) symbol = true) {others : List Expr}
    (each : ∀ e ∈ others, Spoken (Context.arithmetic parameters) e ∧ ReadBack parameters e)
    (left : Expr) (rest : List String) :
    ContinuesAs (operators (Context.arithmetic parameters) 0 left
        (tokensAfter symbol others ++ ")" :: rest))
      ((others.map chained).foldl (infixNode (Context.arithmetic parameters) symbol) left)
      (")" :: rest) := by
  induction others generalizing left with
  | nil => exact operators_stop (stops_mark (Or.inl rfl) 0 rest) left
  | cons e others ih =>
      obtain ⟨spoken, readBack⟩ := each e (by simp)
      have ends : Stops (Context.arithmetic parameters) (precedence symbol + 1)
          (tokensAfter symbol others ++ ")" :: rest) := by
        cases others with
        | nil => exact stops_mark (Or.inl rfl) _ rest
        | cons next others =>
            rintro token ⟨⟩ ⟨_, strong⟩
            exact absurd strong (by omega)
      have operand := readBack (tokensAfter symbol others ++ ")" :: rest)
        (head_tokensAfter (ne_opening isInfix) others (by simp))
      have right := operation_readsAs operand (operators_stop ends e.chained)
      rw [tokensAfter, List.cons_append, List.append_assoc]
      exact operators_step isInfix (Nat.zero_le _)
        (head_ne spoken (by decide) (by decide +kernel) _) right
        (ih (fun other member => each other (by simp [member])) _)

theorem argumentList_each {first : Expr} {others : List Expr}
    (each : ∀ e ∈ first :: others, ReadBack parameters e) (rest : List String) :
    ReadsAs (argumentList (Context.arithmetic parameters)
        (first.displayTokens ++ (tokensAfter "," others ++ ")" :: rest)))
      (first.chained :: others.map chained) rest := by
  induction others generalizing first with
  | nil =>
      have operand := each first (by simp) (")" :: rest) (by simp)
      exact argumentList_last (operation_readsAs operand
        (operators_stop (stops_mark (Or.inl rfl) 0 rest) _))
  | cons second others ih =>
      have more := ih fun e member => each e (List.mem_cons_of_mem first member)
      have operand := each first (by simp)
        ("," :: (second.displayTokens ++ (tokensAfter "," others ++ ")" :: rest))) (by simp)
      rw [tokensAfter, List.cons_append, List.append_assoc]
      exact argumentList_more (operation_readsAs operand
        (operators_stop (stops_mark (Or.inr rfl) 0 _) _)) more

theorem chained_joining {kind : Kind} {symbol : String} {first : Expr} {others : List Expr}
    (isJoined : isJoining kind = true)
    (spoken : Spoken (Context.arithmetic parameters) (node kind symbol (first :: others))) :
    (node kind symbol (first :: others)).chained =
      (others.map chained).foldl (infixNode (Context.arithmetic parameters) symbol)
        first.chained := by
  obtain ⟨count, known⟩ := ((formed_node _ _ _).mp spoken.formed).1
  -- Only trains are changed, and the others have two operands.
  cases kind with
  | train =>
      rw [infixNode_binary ((Context.isAlgebraic_arithmetic parameters).trains
        (of_decide_eq_true known)), chained, bottomUp_node]
      rfl
  | binary =>
      have one : others.length = 1 := by simpa [countFault?] using count
      obtain ⟨right, rfl⟩ := List.length_eq_one_iff.mp one
      rw [infixNode_binary (of_decide_eq_true known), chained, bottomUp_node]
      rfl
  | statement =>
      have one : others.length = 1 := by simpa [countFault?] using count
      obtain ⟨right, rfl⟩ := List.length_eq_one_iff.mp one
      rw [chained, bottomUp_node, List.map_cons, List.map_cons, List.map_nil, List.foldl_cons,
        List.foldl_nil, infixNode, if_pos (of_decide_eq_true known)]
      rfl
  | const => simp [isJoining] at isJoined
  | var => simp [isJoining] at isJoined
  | unary => simp [isJoining] at isJoined
  | call => simp [isJoining] at isJoined
  | variadic => simp [isJoining] at isJoined

theorem application_word {symbol : String} (isWord : Token.isWord symbol = true)
    {arguments : List Expr} (each : ∀ argument ∈ arguments, argument.isMarker = false) :
    application (Context.arithmetic parameters) symbol arguments = .ok (call symbol arguments) := by
  have noOperator : ∀ name ∈ ["=", "=>", "+", "-", "*", "/"], symbol ≠ name := by
    rintro name member rfl
    have noWords : ∀ name ∈ ["=", "=>", "+", "-", "*", "/"], Token.isWord name = false := by
      decide +kernel
    simp [noWords symbol member] at isWord
  have isCall : operatorKind (Context.arithmetic parameters) symbol arguments.length = .call := by
    simp only [List.forall_mem_cons] at noOperator
    simp [operatorKind, Context.arithmetic, statementSymbols, noOperator]
  rw [application_eq_ok (isWord_ne_ellipsis isWord) each, isCall]
  rfl

theorem readBack {e : Expr} (spoken : Spoken (Context.arithmetic parameters) e) :
    ReadBack parameters e := by
  refine spoken.induction (P := ReadBack parameters) ?leaf ?call ?unary ?joining
  case leaf =>
    intro symbol isWord rest plain
    have same : (leaf (Context.arithmetic parameters) symbol).chained =
        leaf (Context.arithmetic parameters) symbol := by
      unfold leaf
      split
      all_goals rfl
    rw [displayTokens_leaf, same]
    exact operand_leaf isWord plain
  case call =>
    intro symbol args isWord spoken each rest _
    have same : (call symbol args).chained = call symbol (args.map chained) := by
      rw [chained, call, bottomUp_node]
      rfl
    have reads : ∃ tokens, (call symbol args).displayTokens ++ rest = symbol :: "(" :: tokens ∧
        ReadsAs (arguments (Context.arithmetic parameters) tokens) (args.map chained) rest := by
      cases args with
      | nil => exact ⟨")" :: rest, rfl, arguments_none rest⟩
      | cons first others =>
          have head : (first.displayTokens ++ (tokensAfter "," others ++ ")" :: rest)).head? ≠
              some ")" :=
            head_ne (spoken.child List.mem_cons_self) (by decide) (by decide +kernel) _
          refine ⟨_, ?_, arguments_some head (argumentList_each each rest)⟩
          rw [call, displayTokens]
          simp
    obtain ⟨tokens, whole, read⟩ := reads
    have operands := (arguments_ends (reader_operand (Context.arithmetic parameters)) tokens)
    obtain ⟨shorter, found⟩ := read
    have built := @application_word parameters symbol isWord _ fun argument member =>
      (operands.value found argument member).2
    rw [whole, same]
    exact operand_call isWord ⟨shorter, found⟩ built
  case unary =>
    intro symbol operand isUnary readBack rest _
    have inner := operand_unary isUnary (readBack (")" :: rest) (by simp))
    have read := operation_readsAs inner (operators_stop (stops_mark (Or.inl rfl) 0 rest) _)
    have same : (unary symbol operand).chained = unary symbol operand.chained := by
      rw [chained, unary, bottomUp_node]
      rfl
    have tokens : (unary symbol operand).displayTokens ++ rest =
        "(" :: symbol :: (operand.displayTokens ++ ")" :: rest) := by
      rw [unary, displayTokens]
      simp
    rw [same, tokens]
    exact operand_enclosed opening_ordinary read
  case joining =>
    intro kind symbol first others isJoined spoken each rest _
    have isInfix : isInfixOperator (Context.arithmetic parameters) symbol = true :=
      isInfixOperator_arithmetic.mpr
        (isJoining_symbol isJoined ((formed_node _ _ _).mp spoken.formed).1.2)
    have operand := each first (by simp) (tokensAfter symbol others ++ ")" :: rest)
      (head_tokensAfter (ne_opening isInfix) others (by simp))
    have all := operators_chain isInfix (fun e member =>
      ⟨spoken.child (List.mem_cons_of_mem first member),
        each e (List.mem_cons_of_mem first member)⟩) first.chained rest
    have tokens : (node kind symbol (first :: others)).displayTokens ++ rest =
        "(" :: (first.displayTokens ++ (tokensAfter symbol others ++ ")" :: rest)) := by
      rw [displayTokens_joining isJoined]
      simp
    rw [chained_joining isJoined spoken, tokens]
    exact operand_enclosed opening_ordinary (operation_readsAs operand all)

theorem readable_spoken (parameters : List String) : Readable (Context.arithmetic parameters)
    fun e => e.Formed (spokenNodes (Context.arithmetic parameters)) ∧ e.isMarker = false where
  leaf token isWord := by
    unfold leaf
    split
    · rename_i isConstant
      exact ⟨by simp [const, formed_node, countFault?, spokenNodes, isWord, isConstant], rfl⟩
    · rename_i isVariable
      exact ⟨by simp [var, formed_node, countFault?, spokenNodes, isWord, isVariable], rfl⟩
  unary token inner isUnary formed :=
    ⟨by simp [unary, formed_node, countFault?, spokenNodes, isUnary, formed], rfl⟩
  variadicTrain symbol template known formed :=
    ⟨by simp [variadicTrain, train, formed_node, countFault?, spokenNodes, known, formed], rfl⟩
  infixNode symbol left right isInfix leftFormed rightFormed := by
    unfold infixNode
    split
    · rename_i isStatement
      exact ⟨by simp [formed_node, countFault?, spokenNodes, isStatement, leftFormed, rightFormed],
        rfl⟩
    · split
      · rename_i isBinary
        exact ⟨by simp [binary, formed_node, countFault?, spokenNodes, isBinary, leftFormed,
          rightFormed], rfl⟩
      · rename_i noStatement noBinary
        have known : symbol ∈ (Context.arithmetic parameters).assocOps := by
          simpa [isInfixOperator, noStatement, noBinary] using isInfix
        exact ⟨by simp [train, formed_node, countFault?, spokenNodes, known, leftFormed,
          rightFormed], rfl⟩
  application token arguments e isWord each built := by
    have made := @application_word parameters token isWord arguments
      fun argument member => (each argument member).2
    obtain rfl := Except.ok.inj (made.symm.trans built)
    refine ⟨(formed_node _ _ _).mpr ⟨⟨rfl, isWord⟩, fun argument member => ?_⟩, rfl⟩
    exact (each argument member).1

theorem trainLengths_three {e : Expr} (free : e.MarkerFree) (groups : e.Groups several)
    (unpaired : e.TrainLengths (· ≠ 2)) : e.TrainLengths (3 ≤ ·) := by
  induction e using Expr.induction with
  | node kind symbol children each =>
      have inner := ((markerFree_node _ _ _).mp free).2
      refine (trainLengths_node _ _ _ _).mpr ⟨?_, fun child member =>
        each child member (inner child member) (groups.child member) (unpaired.child member)⟩
      rintro rfl
      have isGroup : (node .train symbol children).isGroupOf symbol = true :=
        (isGroupOf_iff _ _ _ _).mpr ⟨Or.inr rfl, rfl, template?_of_no_marker fun child member =>
          (inner child member).isMarker_eq_false⟩
      have two : 2 ≤ children.length := of_decide_eq_true (groups.here isGroup)
      have other : children.length ≠ 2 := ((trainLengths_node _ _ _ _).mp unpaired).1 rfl
      omega

theorem infixed_chained {text : String} {e : Expr}
    (parsed : infixed (Context.arithmetic parameters) text = .ok e) (plain : ¬e.HasVariadicTrain) :
    Spoken (Context.arithmetic parameters) e ∧
      (e.chained.flatten (Context.arithmetic parameters).assocOps).shorten
        (Context.arithmetic parameters).binaryOps = e := by
  have algebraic := Context.isAlgebraic_arithmetic parameters
  have formation := isFormation_formed (spokenNodes (Context.arithmetic parameters))
  have operand := (infixed_operand (Context.arithmetic parameters) text).value parsed
  have free := markerFree_of_not_hasVariadicTrain operand.1 operand.2 plain
  have tidy := infixed_tidy algebraic.trains parsed
  unfold infixed at parsed
  split at parsed
  · simp at parsed
  · rename_i written read
    have spoken := (tokens_ends (readable_spoken parameters).reader _).value read
    have shaped := ((tokens_ends (reader_operand (Context.arithmetic parameters)) _).value read).1
    have flat := ((isPass_flattenNode (Context.arithmetic parameters).assocOps).bottomUp shaped).1
    have whole := Except.ok.inj parsed
    have formed : e.Formed (spokenNodes (Context.arithmetic parameters)) := by
      have binaries : ∀ symbol ∈ (Context.arithmetic parameters).binaryOps,
          spokenNodes (Context.arithmetic parameters) .train symbol = true →
            spokenNodes (Context.arithmetic parameters) .binary symbol = true :=
        fun symbol known _ => decide_eq_true known
      rw [← whole]
      refine (spoken.1.bottomUp fun node here => formation.flattenNode ?_ here).bottomUp
        fun node here => formation.shortenNode binaries here
      exact fun symbol known => decide_eq_true known
    have groups : e.Groups (unnested (Context.arithmetic parameters).assocOps) :=
      whole ▸ shorten_unnested flat (flatten_unnested shaped)
    have short : e.Short (Context.arithmetic parameters).binaryOps := whole ▸ shorten_short _ _
    have overTrains : e.Formed (trainsOver (Context.arithmetic parameters).assocOps) := by
      refine formed.of_markerFree (fun kind symbol _ known => ?_) free
      cases kind
      case train => simpa [trainsOver, spokenNodes] using known
      all_goals rfl
    refine ⟨⟨formed, free⟩, ?_⟩
    rw [flatten_chained overTrains (trainLengths_three free tidy.groups tidy.unpaired) groups]
    exact bottomUp_eq_self (fun _ => shortenNode_of_short) short

/-- The infix form of what is read is read as the same expression, if it has no variadic train. -/
theorem infixed_reads_back (parameters : List String) (text : String) (e : Expr)
    (parsed : infixed (Context.arithmetic parameters) text = .ok e) (plain : ¬e.HasVariadicTrain) :
    infixed (Context.arithmetic parameters) e.display = .ok e := by
  obtain ⟨spoken, whole⟩ := infixed_chained parsed plain
  have scanned : Token.scan e.display = e.displayTokens := by
    have read := scans_display spoken [] Token.endsWord_nil
    rw [List.append_nil, @Token.scanChars_of_blank [] rfl, List.append_nil] at read
    rw [Token.scan, read, List.map_map]
    exact (List.map_congr_left fun token _ => String.ofList_toList).trans (List.map_id _)
  obtain ⟨token, more, begins, _⟩ := head_displayTokens spoken
  have operand := readBack spoken [] (by simp)
  have ends : Stops (Context.arithmetic parameters) 0 [] := by simp [Stops]
  have reads := operation_readsAs operand (operators_stop ends e.chained)
  rw [List.append_nil] at reads
  obtain ⟨_, read⟩ := reads
  rw [infixed, scanned, tokens, if_neg (by simp [begins]), read]
  exact congrArg Except.ok whole

end

/-- A train of four terms with a product and a negated call, and a quotient. -/
theorem infixed_reads_back_equation :
    let ctx := Context.arithmetic ["k"]
    let e := equation (train "+" [var "a", binary "*" (const "2") (var "b"),
      unary "-" (call "f" []), const "1.5"]) (binary "/" (var "x") (const "k"))
    infixed ctx "a + 2*b + -f() + 1.5 = x / k" = .ok e ∧ ¬e.HasVariadicTrain ∧
      e.display = "((a + (2 * b) + (-f()) + 1.5) = (x / k))" ∧ infixed ctx e.display = .ok e := by
  have parsed : infixed (Context.arithmetic ["k"]) "a + 2*b + -f() + 1.5 = x / k" =
      .ok (equation (train "+" [var "a", binary "*" (const "2") (var "b"),
        unary "-" (call "f" []), const "1.5"]) (binary "/" (var "x") (const "k"))) := by
    have scanned : Token.scan "a + 2*b + -f() + 1.5 = x / k" =
        ["a", "+", "2", "*", "b", "+", "-", "f", "(", ")", "+", "1.5", "=", "x", "/", "k"] := by
      decide +kernel
    have called : application (Context.arithmetic ["k"]) "f" [] = .ok (call "f" []) := by
      decide +kernel
    rw [infixed, scanned, Parse.tokens]
    simp +decide only [operation, operand, operators, arguments, called, List.tail_cons,
      ↓reduceIte]
    decide +kernel
  have plain : ¬(equation (train "+" [var "a", binary "*" (const "2") (var "b"),
      unary "-" (call "f" []), const "1.5"])
        (binary "/" (var "x") (const "k"))).HasVariadicTrain := by
    decide +kernel
  exact ⟨parsed, plain, by decide +kernel, infixed_reads_back ["k"] _ _ parsed plain⟩

end Stepwise.Parse
