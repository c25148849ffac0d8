import Stepwise.Parse.Token
import Stepwise.Proofs.Deduction.Shaped
import Stepwise.Proofs.Parse.Formed
import Stepwise.Proofs.Parse.Written

/-!
The applied notation writes faithfully what is read. What the infix notation reads is built of the
nodes that the applied notation makes of the same symbols and operands, and so is what flattening
makes of it.
-/

namespace Stepwise.Token

theorem scanChars_of_blank {cs : List Char} (blank : Text.trimLeft cs = []) :
    scanChars cs = [] := by
  rw [scanChars]
  split
  · rfl
  · rename_i c rest trimmed
    rw [blank] at trimmed
    simp at trimmed

theorem scanChars_of_trim {cs rest : List Char} {c : Char}
    (trimmed : Text.trimLeft cs = c :: rest) :
    scanChars cs =
      first (c :: rest) :: scanChars ((c :: rest).drop (first (c :: rest)).length) := by
  rw [scanChars]
  split
  · rename_i blank
    rw [blank] at trimmed
    simp at trimmed
  · rename_i other more same
    rw [trimmed] at same
    obtain ⟨rfl, rfl⟩ := List.cons.inj same
    rfl

end Stepwise.Token

namespace Stepwise.Parse

open Stepwise.Expr

section

variable {ctx : Context}

theorem Notated.wellShaped {e : Expr} (notated : Notated ctx e) : e.WellShaped := by
  induction notated with
  | leaf isSymbol =>
      unfold Parse.leaf
      split
      all_goals simp [const, var, wellShaped_node, shapeFault?, countFault?]
  | application _ _ built each =>
      obtain ⟨_, _, made⟩ := application_eq_ok_iff.mp built
      exact wellShaped_of_build made each

def IsArgument (ctx : Context) (e : Expr) : Prop := Notated ctx e ∧ e.isMarker = false

theorem isArgument_application {symbol : String} {operands : List Expr} (isSymbol : IsSymbol symbol)
    (ordinary : symbol ≠ ellipsis) (each : ∀ operand ∈ operands, IsArgument ctx operand) :
    IsArgument ctx (node (operatorKind ctx symbol operands.length) symbol operands) := by
  refine ⟨.application isSymbol (fun operand member => (each operand member).1)
    (application_eq_ok ordinary fun operand member => (each operand member).2), ?_⟩
  rcases operatorKind_cases ctx symbol operands.length with
    ⟨same, _⟩ | ⟨same | same, _⟩ | ⟨same, _⟩ | same
  all_goals rw [same]; rfl

theorem Notated.bottomUp (step : Expr → Expr)
    (keeps : ∀ e, Notated ctx e → Notated ctx (step e) ∧ (step e).isMarker = e.isMarker) {e : Expr}
    (notated : Notated ctx e) :
    Notated ctx (bottomUp step e) ∧ (bottomUp step e).isMarker = e.isMarker := by
  induction notated with
  | @leaf symbol isSymbol =>
      have same : Expr.bottomUp step (Parse.leaf ctx symbol) = step (Parse.leaf ctx symbol) := by
        unfold Parse.leaf
        split
        all_goals exact bottomUp_node step _ _ []
      rw [same]
      exact keeps _ (.leaf isSymbol)
  | @application symbol operands e isSymbol _ built ih =>
      obtain ⟨kind, _, rfl⟩ := application_node built
      rw [bottomUp_node]
      refine keeps _ (.application isSymbol ?_
        (application_map (fun operand member => (ih operand member).2) built))
      simp only [List.mem_map]
      rintro _ ⟨operand, member, rfl⟩
      exact (ih operand member).1

theorem Notated.group {e : Expr} (notated : Notated ctx e) {symbol : String}
    (isGroup : e.isGroupOf symbol = true) :
    IsSymbol symbol ∧ symbol ≠ ellipsis ∧ e.kind = operatorKind ctx symbol e.children.length ∧
      ∀ child ∈ e.children, IsArgument ctx child := by
  have shaped := notated.wellShaped
  cases notated with
  | leaf isSymbol =>
      unfold Parse.leaf isGroupOf at isGroup
      split at isGroup
      all_goals simp [const, var] at isGroup
  | @application name operands _ isSymbol each built =>
      obtain ⟨kind, _, rfl⟩ := application_node built
      obtain ⟨groups, rfl, plain⟩ := (isGroupOf_iff _ _ _ _).mp isGroup
      obtain ⟨found, known, made⟩ := application_eq_ok_iff.mp built
      have sameNode := eq_of_build made
      injection sameNode with sameKind
      subst sameKind
      have unmarked : ∀ operand ∈ operands, operand.isMarker = false :=
        fun operand => shaped.child_isMarker_eq_false plain
      rcases applicationKind_cases known with ⟨_, rfl⟩ | ⟨_, marked, _⟩ | ⟨ordinary, _, rfl⟩
      · simp at groups
      · simp only [List.any_eq_true] at marked
        obtain ⟨operand, member, marks⟩ := marked
        simp [unmarked operand member] at marks
      · exact ⟨isSymbol, ordinary, rfl,
          fun operand member => ⟨each operand member, unmarked operand member⟩⟩

theorem Notated.several {e : Expr} (notated : Notated ctx e) {symbol : String}
    (isGroup : e.isGroupOf symbol = true) : 2 ≤ e.children.length := by
  obtain ⟨_, _, kindEq, _⟩ := notated.group isGroup
  obtain ⟨kind, name, children⟩ := e
  obtain ⟨groups, _⟩ := (isGroupOf_iff _ _ _ _).mp isGroup
  rw [kind_node, children_node] at kindEq
  rcases operatorKind_cases ctx symbol children.length with
    ⟨same, _⟩ | ⟨_, two⟩ | ⟨_, atLeast, _⟩ | same
  · rw [kindEq, same] at groups
    simp at groups
  · exact two.ge
  · exact atLeast
  · rw [kindEq, same] at groups
    simp at groups

theorem length_lt_flatMap {α β : Type} {f : α → List β} {xs : List α}
    (each : ∀ x ∈ xs, 1 ≤ (f x).length) {x : α} (member : x ∈ xs) (more : 2 ≤ (f x).length) :
    xs.length < (xs.flatMap f).length := by
  have atLeast : ∀ ys : List α, (∀ y ∈ ys, 1 ≤ (f y).length) →
      ys.length ≤ (ys.flatMap f).length := by
    intro ys
    induction ys with
    | nil => simp
    | cons y ys ih =>
        intro lengths
        have first := lengths y (by simp)
        have others := ih fun z inside => lengths z (by simp [inside])
        rw [List.flatMap_cons, List.length_append, List.length_cons]
        omega
  obtain ⟨before, after, rfl⟩ := List.append_of_mem member
  have left := atLeast before fun y inside => each y (by simp [inside])
  have right := atLeast after fun y inside => each y (by simp [inside])
  simp only [List.flatMap_append, List.flatMap_cons, List.length_append, List.length_cons]
  omega

theorem terms_arguments {child : Expr} (argument : IsArgument ctx child) (symbol : String) :
    (∀ term ∈ terms symbol child, IsArgument ctx term) ∧ 1 ≤ (terms symbol child).length ∧
      (child.isGroupOf symbol = true → 2 ≤ (terms symbol child).length) := by
  unfold terms
  split
  · rename_i isGroup
    have several := argument.1.several isGroup
    exact ⟨(argument.1.group isGroup).2.2.2, by omega, fun _ => several⟩
  · rename_i notGroup
    exact ⟨by simpa using argument, by simp, fun isGroup => absurd isGroup notGroup⟩

theorem notated_flattenNode {e : Expr} (notated : Notated ctx e) :
    Notated ctx (flattenNode ctx.assocOps e) ∧
      (flattenNode ctx.assocOps e).isMarker = e.isMarker := by
  unfold flattenNode
  split
  · rename_i merges
    simp only [Bool.and_eq_true, decide_eq_true_eq, List.any_eq_true] at merges
    obtain ⟨⟨known, isGroup⟩, nested, inside, nestedGroup⟩ := merges
    obtain ⟨isSymbol, ordinary, _, each⟩ := notated.group isGroup
    have several := notated.several isGroup
    have lengths := length_lt_flatMap
      (fun child member => (terms_arguments (each child member) e.symbol).2.1) inside
      ((terms_arguments (each nested inside) e.symbol).2.2 nestedGroup)
    have arguments : ∀ term ∈ e.children.flatMap (terms e.symbol), IsArgument ctx term := by
      intro term member
      obtain ⟨child, inChildren, inTerms⟩ := List.mem_flatMap.mp member
      exact (terms_arguments (each child inChildren) e.symbol).1 term inTerms
    have isTrain :
        operatorKind ctx e.symbol (e.children.flatMap (terms e.symbol)).length = .train := by
      generalize (e.children.flatMap (terms e.symbol)).length = count at lengths ⊢
      rw [operatorKind, if_neg (by omega), if_neg (by omega), if_neg (by omega),
        if_pos ⟨by omega, known⟩]
    have whole := isArgument_application isSymbol ordinary arguments
    rw [isTrain] at whole
    obtain ⟨kind, name, children⟩ := e
    obtain ⟨groups, _⟩ := (isGroupOf_iff _ _ _ _).mp isGroup
    refine ⟨whole.1, whole.2.trans ?_⟩
    rcases groups with rfl | rfl
    all_goals rfl
  · exact ⟨notated, rfl⟩

theorem shortenNode_of_notated {e : Expr} (notated : Notated ctx e) :
    shortenNode ctx.binaryOps e = e := by
  unfold shortenNode
  split
  · rename_i symbol left right
    split
    · rename_i isBinary
      have isGroup : (node .train symbol [left, right]).isGroupOf symbol = true := by
        simp [isGroupOf, isVariadicTrain, template?]
      obtain ⟨_, _, isTrain, _⟩ := notated.group isGroup
      change Kind.train = operatorKind ctx symbol 2 at isTrain
      rcases operatorKind_cases ctx symbol 2 with
        ⟨same, _⟩ | ⟨same | same, _⟩ | ⟨_, _, other⟩ | same
      · simp [same] at isTrain
      · simp [same] at isTrain
      · simp [same] at isTrain
      · exact absurd isBinary (other rfl).2
      · simp [same] at isTrain
    · rfl
  · rfl

theorem isSymbolChar_of_isWordChar {c : Char} (isWordChar : Token.isWordChar c = true) :
    isSymbolChar c = true := by
  have bounds : (48 ≤ c.toNat ∧ c.toNat ≤ 57) ∨ (65 ≤ c.toNat ∧ c.toNat ≤ 90) ∨
      (97 ≤ c.toNat ∧ c.toNat ≤ 122) ∨ c.toNat = 95 := by
    change ((decide ('A'.val ≤ c.val ∧ c.val ≤ 'Z'.val) ||
      (decide ('a'.val ≤ c.val) && decide (c.val ≤ 'z'.val))) ||
      (decide ('0'.val ≤ c.val) && decide (c.val ≤ '9'.val)) || decide (c = '_')) = true
      at isWordChar
    simp only [Bool.or_eq_true, Bool.and_eq_true, decide_eq_true_eq, UInt32.le_iff_toNat_le]
      at isWordChar
    rcases isWordChar with ((upper | lower) | digit) | rfl
    · exact Or.inr (Or.inl upper)
    · exact Or.inr (Or.inr (Or.inl lower))
    · exact Or.inl digit
    · exact Or.inr (Or.inr (Or.inr rfl))
  have blank : Text.isBlank c = false := by
    simp [Text.isBlank, Text.inRanges, Text.blankRanges]
    omega
  refine (isSymbolChar_iff c).mpr ⟨blank, ?_, ?_, ?_⟩
  all_goals
    rintro rfl
    simp at bounds

theorem isSymbol_of_isWord {token : String} (isWord : Token.isWord token = true) :
    IsSymbol token ∧ token ≠ ellipsis := by
  have ordinary := isWord_ne_ellipsis isWord
  unfold Token.isWord at isWord
  split at isWord
  · simp at isWord
  · rename_i c rest chars
    simp only [Bool.and_eq_true, decide_eq_true_eq] at isWord
    have whole := isWord.2
    have each : ∀ d ∈ Token.word (c :: rest), isSymbolChar d = true := by
      have ofWordChars : ∀ d ∈ (c :: rest).takeWhile Token.isWordChar, isSymbolChar d = true :=
        fun d member => isSymbolChar_of_isWordChar (List.all_eq_true.mp List.all_takeWhile d member)
      unfold Token.word
      dsimp only
      split
      · intro d member
        rcases List.mem_append.mp member with inHead | later
        · exact ofWordChars d inHead
        · rcases List.mem_cons.mp later with rfl | inDecimals
          · decide +kernel
          · have digit := List.all_eq_true.mp List.all_takeWhile d inDecimals
            exact isSymbolChar_of_isWordChar (by simp [Token.isWordChar, Char.isAlphanum, digit])
      · exact ofWordChars
    rw [whole, ← chars] at each
    exact ⟨⟨by simp [chars], each⟩, ordinary⟩

/-! What the infix notation reads. -/

theorem isArgument_infixNode {symbol : String} (isSymbol : IsSymbol symbol)
    (ordinary : symbol ≠ ellipsis) (isInfix : isInfixOperator ctx symbol = true)
    {left right : Expr} (leftArgument : IsArgument ctx left)
    (rightArgument : IsArgument ctx right) : IsArgument ctx (infixNode ctx symbol left right) := by
  have whole : IsArgument ctx (node (operatorKind ctx symbol [left, right].length) symbol
      [left, right]) :=
    isArgument_application isSymbol ordinary (by simp [leftArgument, rightArgument])
  unfold infixNode
  split
  · rename_i isStatement
    simpa [operatorKind, isStatement] using whole
  · rename_i noStatement
    split
    · rename_i isBinary
      simpa [operatorKind, noStatement, isBinary, binary] using whole
    · rename_i noBinary
      have known : symbol ∈ ctx.assocOps := by
        simpa [isInfixOperator, noStatement, noBinary] using isInfix
      simpa [operatorKind, noStatement, noBinary, known, train] using whole

theorem readable_arguments
    (operators : ∀ symbol ∈ ctx.unaryOps ++ ctx.binaryOps ++ ctx.assocOps,
      IsSymbol symbol ∧ symbol ≠ ellipsis) : Readable ctx (IsArgument ctx) where
  leaf token isWord := by
    refine ⟨.leaf (isSymbol_of_isWord isWord).1, ?_⟩
    unfold Parse.leaf
    split
    all_goals rfl
  unary token inner isUnary argument := by
    have known : token ∈ ctx.unaryOps := by
      simp only [isUnaryOperator, Bool.and_eq_true, decide_eq_true_eq] at isUnary
      exact isUnary.1
    obtain ⟨isSymbol, ordinary⟩ := operators token (by simp [known])
    have whole : IsArgument ctx (node (operatorKind ctx token [inner].length) token [inner]) :=
      isArgument_application isSymbol ordinary (by simpa using argument)
    simpa [operatorKind, known, unary] using whole
  variadicTrain symbol template known argument := by
    obtain ⟨isSymbol, ordinary⟩ := operators symbol (by simp [known])
    have marker : Notated ctx (node .variadic ellipsis [template]) := by
      have isSymbol : IsSymbol ellipsis := by decide +kernel
      have built : Parse.application ctx ellipsis [template] =
          .ok (node .variadic ellipsis [template]) := by
        simp [Parse.application, build, shapeFault?, countFault?, argument.2]
      exact .application isSymbol (by simpa using argument.1) built
    have built : Parse.application ctx symbol [node .variadic ellipsis [template]] =
        .ok (variadicTrain symbol template) := by
      simp [Parse.application, ordinary, known, build, shapeFault?, countFault?, variadicTrain,
        train]
    exact ⟨.application isSymbol (by simpa using marker) built, rfl⟩
  infixNode symbol left right isInfix leftArgument rightArgument := by
    have isSymbol : IsSymbol symbol ∧ symbol ≠ ellipsis := by
      have places := isInfix
      simp only [isInfixOperator, Bool.or_eq_true, decide_eq_true_eq] at places
      rcases places with (isStatement | isBinary) | isAssoc
      · have each : ∀ name ∈ statementSymbols, IsSymbol name ∧ name ≠ ellipsis := by
          decide +kernel
        exact each symbol isStatement
      · exact operators symbol (by simp [isBinary])
      · exact operators symbol (by simp [isAssoc])
    exact isArgument_infixNode isSymbol.1 isSymbol.2 isInfix leftArgument rightArgument
  application token arguments e isWord each built := by
    obtain ⟨isSymbol, ordinary⟩ := isSymbol_of_isWord isWord
    have made : Parse.application ctx token arguments = .ok _ :=
      application_eq_ok ordinary fun argument member => (each argument member).2
    obtain rfl := Except.ok.inj (made.symm.trans built)
    exact isArgument_application isSymbol ordinary each

theorem isArgument_infixed
    (operators : ∀ symbol ∈ ctx.unaryOps ++ ctx.binaryOps ++ ctx.assocOps,
      IsSymbol symbol ∧ symbol ≠ ellipsis) {text : String} {e : Expr}
    (parsed : infixed ctx text = .ok e) : IsArgument ctx e := by
  refine (infixed_ends (readable_arguments operators).reader ?_ ?_ text).value parsed
  · intro written argument
    have flat := argument.1.bottomUp (flattenNode ctx.assocOps)
      fun _ notated => notated_flattenNode notated
    exact ⟨flat.1, flat.2.trans argument.2⟩
  · intro flat argument
    have short := argument.1.bottomUp (shortenNode ctx.binaryOps)
      fun _ notated => by
        rw [shortenNode_of_notated notated]
        exact ⟨notated, rfl⟩
    exact ⟨short.1, short.2.trans argument.2⟩

end

/-- The applied text of whatever is read, in the one notation or in the other, is read as the same
tree. In the applied notation this needs no condition on the operators. -/
theorem applied_reads_back (ctx : Context) :
    (∀ text e, applied ctx text = .ok e → applied ctx e.applied = .ok e) ∧
    ((∀ symbol ∈ ctx.unaryOps ++ ctx.binaryOps ++ ctx.assocOps,
        IsSymbol symbol ∧ symbol ≠ ellipsis) →
      ∀ text e, infixed ctx text = .ok e → applied ctx e.applied = .ok e) := by
  constructor
  · intro text e parsed
    exact ((appliedChars_ends ctx text.toList).value parsed).read_back
  · intro operators text e parsed
    exact (isArgument_infixed operators parsed).1.read_back

theorem infixed_series : infixed (Context.arithmetic []) "f() + 2 * A + ..." =
    .ok (variadicTrain "+" (binary "+" (call "f" []) (binary "*" (const "2") (var "A")))) := by
  have scanned : Token.scan "f() + 2 * A + ..." =
      ["f", "(", ")", "+", "2", "*", "A", "+", "..."] := by
    decide +kernel
  have called : application (Context.arithmetic []) "f" [] = .ok (call "f" []) := by decide +kernel
  rw [infixed, scanned, Parse.tokens]
  simp +decide only [operation, operand, operators, arguments, called, List.tail_cons,
    ↓reduceIte]
  decide +kernel

/-- A text with blanks, and a sum of a call and a product in a variadic train. -/
theorem applied_reads_back_series :
    (∃ e, applied (Context.arithmetic []) " =( + (X, 0), X )" = .ok e ∧
      applied (Context.arithmetic []) e.applied = .ok e) ∧
    ∃ e, infixed (Context.arithmetic []) "f() + 2 * A + ..." = .ok e ∧
      applied (Context.arithmetic []) e.applied = .ok e := by
  have parsed : applied (Context.arithmetic []) " =( + (X, 0), X )" =
      .ok (equation (binary "+" (var "X") (const "0")) (var "X")) := by
    decide +kernel
  have operators : ∀ symbol ∈ (Context.arithmetic []).unaryOps ++
      (Context.arithmetic []).binaryOps ++ (Context.arithmetic []).assocOps,
      IsSymbol symbol ∧ symbol ≠ ellipsis := by
    decide +kernel
  have back := applied_reads_back (Context.arithmetic [])
  exact ⟨⟨_, parsed, back.1 _ _ parsed⟩, _, infixed_series, back.2 operators _ _ infixed_series⟩

end Stepwise.Parse
