import Stepwise.Proofs.Parse.Display

/-!
Precedence and associativity of the infix notation. `Prints` relates a tree to the token lists that
write it: an operand of an operator is enclosed in parentheses where the strength of its own
operator asks for it, and everything may be enclosed again. Whatever follows, each of them is read
as the tree that it writes, as far as the operators after it are too weak to reach into it.
-/

namespace Stepwise.Parse

open Stepwise.Expr

/-- The marks of the notation are no operators, and no unary operator is a word. -/
structure Legible (ctx : Context) : Prop where
  marks : ∀ mark ∈ [ellipsis, "(", ")", ","],
    mark ∉ ctx.unaryOps ∧ mark ∉ ctx.binaryOps ∧ mark ∉ ctx.assocOps
  unary : ∀ symbol ∈ ctx.unaryOps, Token.isWord symbol = false

inductive IsTerm (ctx : Context) : Expr → Prop
  | leaf {symbol : String} (isWord : Token.isWord symbol = true) : IsTerm ctx (leaf ctx symbol)
  | call {symbol : String} {arguments : List Expr} (isWord : Token.isWord symbol = true)
      (each : ∀ argument ∈ arguments, IsTerm ctx argument) :
      IsTerm ctx (node (operatorKind ctx symbol arguments.length) symbol arguments)
  | unary {symbol : String} {operand : Expr} (known : symbol ∈ ctx.unaryOps)
      (inner : IsTerm ctx operand) : IsTerm ctx (unary symbol operand)
  | joined {symbol : String} {left right : Expr} (isInfix : isInfixOperator ctx symbol = true)
      (first : IsTerm ctx left) (second : IsTerm ctx right) :
      IsTerm ctx (infixNode ctx symbol left right)

inductive Phrase
  | operand (e : Expr)
  | operation (strength : Nat) (e : Expr)
  | arguments (es : List Expr)

/-- The token lists that write a phrase. The left operand of an operator may be joined by operators
of the same strength, its right operand only by stronger ones. -/
inductive Prints (ctx : Context) : Phrase → List String → Prop
  | leaf {symbol : String} (isWord : Token.isWord symbol = true) :
      Prints ctx (.operand (leaf ctx symbol)) [symbol]
  | constant {symbol : String} (isWord : Token.isWord symbol = true) :
      Prints ctx (.operand (node (operatorKind ctx symbol 0) symbol [])) [symbol, "(", ")"]
  | call {symbol : String} {arguments : List Expr} {tokens : List String}
      (isWord : Token.isWord symbol = true) (inner : Prints ctx (.arguments arguments) tokens) :
      Prints ctx (.operand (node (operatorKind ctx symbol arguments.length) symbol arguments))
        (symbol :: "(" :: (tokens ++ [")"]))
  | unary {symbol : String} {operand : Expr} {tokens : List String} (known : symbol ∈ ctx.unaryOps)
      (inner : Prints ctx (.operand operand) tokens) :
      Prints ctx (.operand (unary symbol operand)) (symbol :: tokens)
  | enclosed {e : Expr} {tokens : List String} (inner : Prints ctx (.operation 0 e) tokens) :
      Prints ctx (.operand e) ("(" :: (tokens ++ [")"]))
  | alone {strength : Nat} {e : Expr} {tokens : List String}
      (inner : Prints ctx (.operand e) tokens) : Prints ctx (.operation strength e) tokens
  | joined {strength : Nat} {symbol : String} {left right : Expr} {before after : List String}
      (isInfix : isInfixOperator ctx symbol = true) (strong : strength ≤ precedence symbol)
      (first : Prints ctx (.operation (precedence symbol) left) before)
      (second : Prints ctx (.operation (precedence symbol + 1) right) after) :
      Prints ctx (.operation strength (infixNode ctx symbol left right)) (before ++ symbol :: after)
  | last {e : Expr} {tokens : List String} (only : Prints ctx (.operation 0 e) tokens) :
      Prints ctx (.arguments [e]) tokens
  | more {e : Expr} {es : List Expr} {tokens after : List String}
      (first : Prints ctx (.operation 0 e) tokens) (others : Prints ctx (.arguments es) after) :
      Prints ctx (.arguments (e :: es)) (tokens ++ "," :: after)

section

variable {ctx : Context}

theorem Legible.not_isInfixOperator (legible : Legible ctx) {mark : String}
    (member : mark ∈ [ellipsis, "(", ")", ","]) : isInfixOperator ctx mark = false := by
  have noStatement : ∀ mark ∈ [ellipsis, "(", ")", ","], mark ∉ statementSymbols := by decide
  obtain ⟨_, noBinary, noTrain⟩ := legible.marks mark member
  simp [isInfixOperator, noStatement mark member, noBinary, noTrain]

theorem Legible.stops_mark (legible : Legible ctx) {mark : String}
    (member : mark ∈ [ellipsis, "(", ")", ","]) (strength : Nat) (rest : List String) :
    Stops ctx strength (mark :: rest) := by
  rintro token ⟨⟩ ⟨isInfix, _⟩
  simp [legible.not_isInfixOperator member] at isInfix

theorem Legible.opening_ordinary (legible : Legible ctx) : isUnaryOperator ctx "(" = false := by
  simp [isUnaryOperator, (legible.marks "(" (by simp)).1]

theorem Legible.ne_opening (legible : Legible ctx) {symbol : String}
    (isInfix : isInfixOperator ctx symbol = true) : symbol ≠ "(" := by
  rintro rfl
  simp [legible.not_isInfixOperator] at isInfix

theorem IsTerm.isMarker {e : Expr} (term : IsTerm ctx e) : e.isMarker = false := by
  cases term with
  | leaf isWord =>
      unfold Parse.leaf
      split
      all_goals rfl
  | call isWord each => exact decide_eq_false (operatorKind_ne_variadic ctx _ _)
  | unary known inner => rfl
  | joined isInfix first second =>
      unfold infixNode
      split
      · rfl
      · split
        all_goals rfl

def Phrase.OfTerms (ctx : Context) : Phrase → Prop
  | operand e => IsTerm ctx e
  | operation _ e => IsTerm ctx e
  | arguments es => ∀ e ∈ es, IsTerm ctx e

theorem Prints.ofTerms {phrase : Phrase} {tokens : List String}
    (printed : Prints ctx phrase tokens) : phrase.OfTerms ctx := by
  induction printed with
  | leaf isWord => exact .leaf isWord
  | constant isWord => exact .call isWord fun _ member => absurd member List.not_mem_nil
  | call isWord inner ih => exact .call isWord ih
  | unary known inner ih => exact .unary known ih
  | enclosed inner ih => exact ih
  | alone inner ih => exact ih
  | joined isInfix strong first second left right => exact .joined isInfix left right
  | last only ih => exact List.forall_mem_singleton.mpr ih
  | more first others one each => exact List.forall_mem_cons.mpr ⟨one, each⟩

theorem exists_prints_arguments {first : Expr} {others : List Expr}
    (each : ∀ e ∈ first :: others, ∃ tokens, Prints ctx (.operand e) tokens) :
    ∃ tokens, Prints ctx (.arguments (first :: others)) tokens := by
  induction others generalizing first with
  | nil =>
      obtain ⟨tokens, printed⟩ := each first List.mem_cons_self
      exact ⟨_, .last (.alone printed)⟩
  | cons second others ih =>
      obtain ⟨tokens, printed⟩ := each first List.mem_cons_self
      obtain ⟨after, more⟩ := ih fun e member => each e (List.mem_cons_of_mem first member)
      exact ⟨_, .more (.alone printed) more⟩

theorem IsTerm.exists_prints {e : Expr} (term : IsTerm ctx e) :
    ∃ tokens, Prints ctx (.operand e) tokens := by
  induction term with
  | leaf isWord => exact ⟨_, .leaf isWord⟩
  | @call symbol arguments isWord each ih =>
      cases arguments with
      | nil => exact ⟨_, .constant isWord⟩
      | cons first others =>
          obtain ⟨tokens, printed⟩ := exists_prints_arguments ih
          exact ⟨_, .call isWord printed⟩
  | unary known inner ih =>
      obtain ⟨tokens, printed⟩ := ih
      exact ⟨_, .unary known printed⟩
  | joined isInfix first second left right =>
      obtain ⟨before, first⟩ := left
      obtain ⟨after, second⟩ := right
      exact ⟨_, .enclosed (.joined isInfix (Nat.zero_le _) (.alone first) (.alone second))⟩

theorem isTerm_iff_exists_prints {e : Expr} :
    IsTerm ctx e ↔ ∃ tokens, Prints ctx (.operation 0 e) tokens := by
  constructor
  · intro term
    obtain ⟨tokens, printed⟩ := term.exists_prints
    exact ⟨tokens, .alone printed⟩
  · rintro ⟨tokens, printed⟩
    exact printed.ofTerms

/-! What is written is read. -/

theorem Prints.head {phrase : Phrase} {tokens : List String} (printed : Prints ctx phrase tokens) :
    ∃ token more, tokens = token :: more ∧
      (Token.isWord token = true ∨ token ∈ ctx.unaryOps ∨ token = "(") := by
  induction printed with
  | leaf isWord => exact ⟨_, _, rfl, Or.inl isWord⟩
  | constant isWord => exact ⟨_, _, rfl, Or.inl isWord⟩
  | call isWord inner ih => exact ⟨_, _, rfl, Or.inl isWord⟩
  | unary known inner ih => exact ⟨_, _, rfl, Or.inr (Or.inl known)⟩
  | enclosed inner ih => exact ⟨_, _, rfl, Or.inr (Or.inr rfl)⟩
  | alone inner ih => exact ih
  | joined isInfix strong first second left right =>
      obtain ⟨token, more, rfl, begins⟩ := left
      exact ⟨token, _, rfl, begins⟩
  | last only ih => exact ih
  | more first others one each =>
      obtain ⟨token, more, rfl, begins⟩ := one
      exact ⟨token, _, rfl, begins⟩

theorem Prints.head_ne (legible : Legible ctx) {phrase : Phrase} {tokens : List String}
    (printed : Prints ctx phrase tokens) {mark : String} (member : mark ∈ [ellipsis, ")", ","])
    (rest : List String) : (tokens ++ rest).head? ≠ some mark := by
  have noWord : ∀ mark ∈ [ellipsis, ")", ","], Token.isWord mark = false ∧ mark ≠ "(" := by
    decide +kernel
  obtain ⟨token, more, rfl, begins⟩ := printed.head
  rw [List.cons_append, List.head?_cons, ne_eq, Option.some.injEq]
  rintro rfl
  rcases begins with isWord | known | opens
  · simp [noWord token member] at isWord
  · exact (legible.marks token (by revert member; simp; tauto)).1 known
  · exact (noWord token member).2 opens

/-- What is read of the tokens of a phrase before a rest. An operation is read on by the operators
of the rest, all of them weaker than those that it may contain. -/
def Phrase.Reads (ctx : Context) (tokens : List String) : Phrase → Prop
  | operand e => ∀ rest : List String, rest.head? ≠ some "(" →
      ReadsAs (Parse.operand ctx (tokens ++ rest)) e rest
  | operation strength e => ∀ (rest : List String) (least : Nat) (value : Expr)
      (final : List String), rest.head? ≠ some "(" → Stops ctx (strength + 1) rest →
      least ≤ strength → ContinuesAs (operators ctx least e rest) value final →
      ReadsAs (Parse.operation ctx least (tokens ++ rest)) value final
  | arguments es => ∀ rest : List String,
      ReadsAs (argumentList ctx (tokens ++ ")" :: rest)) es rest

theorem Stops.weaken {strength greater : Nat} {rest : List String}
    (stops : Stops ctx strength rest) (le : strength ≤ greater) : Stops ctx greater rest :=
  fun token next strong => stops token next ⟨strong.1, Nat.le_trans le strong.2⟩

theorem reads_upTo (legible : Legible ctx) {e : Expr} {tokens : List String}
    (reads : (Phrase.operation 0 e).Reads ctx tokens) {mark : String}
    (member : mark ∈ [ellipsis, ")", ","]) (rest : List String) :
    ReadsAs (operation ctx 0 (tokens ++ mark :: rest)) e (mark :: rest) := by
  have isMark : mark ∈ [ellipsis, "(", ")", ","] := by revert member; simp; tauto
  have unopened : mark ≠ "(" := by
    rintro rfl
    simp [ellipsis] at member
  exact reads (mark :: rest) 0 e _ (by simpa using unopened) (legible.stops_mark isMark 1 rest)
    (Nat.le_refl 0) (operators_stop (legible.stops_mark isMark 0 rest) e)

theorem Prints.reads (legible : Legible ctx) {phrase : Phrase} {tokens : List String}
    (printed : Prints ctx phrase tokens) : phrase.Reads ctx tokens := by
  induction printed with
  | leaf isWord => exact fun rest unopened => operand_leaf isWord unopened
  | @constant symbol isWord =>
      intro rest _
      exact operand_call isWord (arguments_none rest)
        (application_eq_ok (isWord_ne_ellipsis isWord) (by simp))
  | @call symbol arguments tokens isWord inner ih =>
      intro rest _
      have read := arguments_some (inner.head_ne legible (by simp) (")" :: rest)) (ih rest)
      have built := @application_eq_ok ctx _ _ (isWord_ne_ellipsis isWord)
        fun argument member => (inner.ofTerms argument member).isMarker
      rw [List.cons_append, List.cons_append, List.append_assoc]
      exact operand_call isWord read built
  | @unary symbol operand tokens known inner ih =>
      intro rest unopened
      have isUnary : isUnaryOperator ctx symbol = true := by
        simp [isUnaryOperator, known, legible.unary symbol known]
      exact operand_unary isUnary (ih rest unopened)
  | @enclosed e tokens inner ih =>
      intro rest _
      rw [List.cons_append, List.append_assoc]
      exact operand_enclosed legible.opening_ordinary (reads_upTo legible ih (by simp) rest)
  | alone inner ih =>
      intro rest least value final unopened _ _ continues
      exact operation_readsAs (ih rest unopened) continues
  | @joined strength symbol left right before after isInfix strong first second ih₁ ih₂ =>
      intro rest least value final unopened stops below continues
      -- The rest is left alone by the right operand, whose operators are stronger still.
      have read : ReadsAs (operation ctx (precedence symbol + 1) (after ++ rest)) right rest :=
        ih₂ rest _ right rest unopened (stops.weaken (by omega)) (Nat.le_refl _)
          (operators_stop (stops.weaken (by omega)) right)
      have joins : ContinuesAs (operators ctx least left (symbol :: (after ++ rest))) value final :=
        operators_step isInfix (Nat.le_trans below strong)
          (second.head_ne legible (by simp) rest) read continues
      have ends : Stops ctx (precedence symbol + 1) (symbol :: (after ++ rest)) := by
        rintro token ⟨⟩ ⟨_, stronger⟩
        omega
      rw [List.append_assoc, List.cons_append]
      exact ih₁ _ least value final (by simpa using legible.ne_opening isInfix) ends
        (Nat.le_trans below strong) joins
  | last only ih => exact fun rest => argumentList_last (reads_upTo legible ih (by simp) rest)
  | more first others one each =>
      intro rest
      rw [List.append_assoc, List.cons_append]
      exact argumentList_more (reads_upTo legible one (by simp) _) (each rest)

end

/-- Every term can be written, and however it is written, with the parentheses that the strengths
ask for and any others, all tokens are read and give the term. -/
theorem operation_reads_written (ctx : Context) (legible : Legible ctx) (e : Expr)
    (term : IsTerm ctx e) :
    (∃ tokens, Prints ctx (.operation 0 e) tokens) ∧
      ∀ tokens, Prints ctx (.operation 0 e) tokens → ReadsAs (operation ctx 0 tokens) e [] := by
  refine ⟨isTerm_iff_exists_prints.mp term, fun tokens printed => ?_⟩
  have nothing : ∀ strength, Stops ctx strength [] := by simp [Stops]
  have reads := printed.reads legible [] 0 e [] (by simp) (nothing 1) (Nat.le_refl 0)
    (operators_stop (nothing 0) e)
  rwa [List.append_nil] at reads

/-- Operators of four strengths, one of them a word and one without a strength of its own, with a
call and parentheses that nothing asks for. -/
theorem operation_reads_written_nested :
    let ctx : Context := ⟨["k"], ["-"], ["-", "*", "^", "mod"], ["&"], true, []⟩
    let e := equation
      (train "&" [binary "-" (var "a")
        (binary "*" (binary "^" (unary "-" (var "x")) (const "2")) (var "y")), var "b"])
      (call "f" [var "z", binary "mod" (const "k") (const "1")])
    let tokens := ["a", "-", "(", "-", "x", ")", "^", "2", "*", "y", "&", "b", "=",
      "f", "(", "(", "(", "z", ")", ")", ",", "k", "mod", "1", ")"]
    Legible ctx ∧ IsTerm ctx e ∧ Prints ctx (.operation 0 e) tokens ∧
      ReadsAs (operation ctx 0 tokens) e [] := by
  intro ctx e tokens
  have legible : Legible ctx := ⟨by decide, by decide +kernel⟩
  have word : ∀ name ∈ ["a", "b", "x", "y", "z", "k", "2", "1", "f"],
      Token.isWord name = true := by decide +kernel
  have negated := @Prints.unary ctx "-" _ _ (by decide) (.leaf (word "x" (by decide)))
  have power := @Prints.joined ctx 4 "^" _ _ _ _ (by decide) (by decide)
    (.alone (.enclosed (.alone negated))) (.alone (.leaf (word "2" (by decide))))
  have product := @Prints.joined ctx 4 "*" _ _ _ _ (by decide) (by decide) power
    (.alone (.leaf (word "y" (by decide))))
  have difference := @Prints.joined ctx 3 "-" _ _ _ _ (by decide) (by decide)
    (.alone (.leaf (word "a" (by decide)))) product
  have sum := @Prints.joined ctx 2 "&" _ _ _ _ (by decide) (by decide) difference
    (.alone (.leaf (word "b" (by decide))))
  have remainder := @Prints.joined ctx 0 "mod" _ _ _ _ (by decide) (by decide)
    (.alone (.leaf (word "k" (by decide)))) (.alone (.leaf (word "1" (by decide))))
  have called := Prints.call (word "f" (by decide))
    (.more (.alone (.enclosed (.alone (.enclosed (.alone (.leaf (word "z" (by decide))))))))
      (.last remainder))
  have whole := @Prints.joined ctx 0 "=" _ _ _ _ (by decide) (by decide) sum (.alone called)
  have printed : Prints ctx (.operation 0 e) tokens := by
    convert whole using 2
    · decide +kernel
    · rfl
  have term : IsTerm ctx e := printed.ofTerms
  exact ⟨legible, term, printed, (operation_reads_written ctx legible e term).2 tokens printed⟩

end Stepwise.Parse
