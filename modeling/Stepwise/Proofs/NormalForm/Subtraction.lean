import Stepwise.NormalForm
import Stepwise.Proofs.Expr.Formed

/-!
The passes between subtraction and the addition of a negative. What one of them has written, the
other finds and turns back, so that running the one changes nothing for the other.
-/

namespace Stepwise.Expr

variable (symbols : SubtractionSymbols)

theorem subToNegativeNode_cases (e : Expr) :
    (subToNegativeNode symbols e = e ∧ ∀ left right, e ≠ binary symbols.sub left right) ∨
      ∃ left right, e = binary symbols.sub left right ∧
        subToNegativeNode symbols e = binary symbols.add left (unary symbols.negative right) := by
  unfold subToNegativeNode
  split
  · rename_i symbol left right
    split
    · rename_i isSub
      exact Or.inr ⟨left, right, by rw [isSub, binary], rfl⟩
    · rename_i other
      refine Or.inl ⟨rfl, ?_⟩
      intro first second same
      exact other (node.inj same).2.1
  · rename_i notBinary
    exact Or.inl ⟨rfl, fun left right => notBinary _ left right⟩

theorem negativeToSubNode_cases (e : Expr) :
    negativeToSubNode symbols e = e ∨
      ∃ left operand, e = binary symbols.add left (unary symbols.negative operand) ∧
        negativeToSubNode symbols e = binary symbols.sub left operand := by
  unfold negativeToSubNode
  split
  · rename_i symbol left mark operand
    split
    · rename_i isSum
      exact Or.inr ⟨left, operand, by rw [isSum.1, isSum.2, binary, unary], rfl⟩
    · exact Or.inl rfl
  · exact Or.inl rfl

theorem subToNegativeNode_sub (left right : Expr) :
    subToNegativeNode symbols (binary symbols.sub left right) =
      binary symbols.add left (unary symbols.negative right) := by
  simp [binary, subToNegativeNode]

theorem subToNegativeNode_other {kind : Kind} {symbol : String} {children : List Expr}
    (other : kind = .binary → symbol ≠ symbols.sub) :
    subToNegativeNode symbols (node kind symbol children) = node kind symbol children := by
  rcases subToNegativeNode_cases symbols (node kind symbol children) with
    ⟨same, _⟩ | ⟨left, right, whole, _⟩
  · exact same
  · obtain ⟨isBinary, isSub, _⟩ := node.inj whole
    exact absurd isSub (other isBinary)

theorem subToNegative_node (kind : Kind) (symbol : String) (children : List Expr) :
    subToNegative symbols (node kind symbol children) =
      subToNegativeNode symbols (node kind symbol (children.map (subToNegative symbols))) :=
  bottomUp_node _ _ _ _

theorem subToNegative_unary (symbol : String) (operand : Expr) :
    subToNegative symbols (unary symbol operand) = unary symbol (subToNegative symbols operand) :=
  subToNegative_node symbols .unary symbol [operand]

theorem negativeToSubNode_sum (left operand : Expr) :
    negativeToSubNode symbols (binary symbols.add left (unary symbols.negative operand)) =
      binary symbols.sub left operand := by
  simp [binary, unary, negativeToSubNode]

theorem negativeToSubNode_other {symbol : String} (other : symbol ≠ symbols.add)
    (left right : Expr) :
    negativeToSubNode symbols (binary symbol left right) = binary symbol left right := by
  rcases negativeToSubNode_cases symbols (binary symbol left right) with
    same | ⟨first, operand, whole, _⟩
  · exact same
  · exact absurd (node.inj whole).2.1 other

theorem negativeToSub_node (kind : Kind) (symbol : String) (children : List Expr) :
    negativeToSub symbols (node kind symbol children) =
      negativeToSubNode symbols (node kind symbol (children.map (negativeToSub symbols))) :=
  bottomUp_node _ _ _ _

theorem negativeToSub_unary (symbol : String) (operand : Expr) :
    negativeToSub symbols (unary symbol operand) = unary symbol (negativeToSub symbols operand) :=
  negativeToSub_node symbols .unary symbol [operand]

theorem subToNegative_negativeToSub (distinct : symbols.add ≠ symbols.sub) (e : Expr) :
    subToNegative symbols (negativeToSub symbols e) = subToNegative symbols e := by
  induction e using Expr.induction with
  | node kind symbol children each =>
      have below : (children.map (negativeToSub symbols)).map (subToNegative symbols) =
          children.map (subToNegative symbols) := by
        rw [List.map_map]
        exact List.map_congr_left each
      rw [negativeToSub_node symbols kind symbol children,
        subToNegative_node symbols kind symbol children, ← below]
      rcases negativeToSubNode_cases symbols
        (node kind symbol (children.map (negativeToSub symbols))) with
        same | ⟨left, operand, whole, written⟩
      · rw [same, subToNegative_node]
      · obtain ⟨rfl, rfl, parts⟩ := node.inj whole
        rw [written, parts, subToNegativeNode_other symbols fun _ => distinct, List.map_cons,
          List.map_cons, subToNegative_unary, binary, subToNegative_node]
        exact subToNegativeNode_sub symbols _ _

theorem negativeToSub_subToNegative (distinct : symbols.sub ≠ symbols.add) (e : Expr) :
    negativeToSub symbols (subToNegative symbols e) = negativeToSub symbols e := by
  induction e using Expr.induction with
  | node kind symbol children each =>
      have below : (children.map (subToNegative symbols)).map (negativeToSub symbols) =
          children.map (negativeToSub symbols) := by
        rw [List.map_map]
        exact List.map_congr_left each
      rw [subToNegative_node symbols kind symbol children,
        negativeToSub_node symbols kind symbol children, ← below]
      rcases subToNegativeNode_cases symbols
        (node kind symbol (children.map (subToNegative symbols))) with
        ⟨same, _⟩ | ⟨left, right, whole, written⟩
      · rw [same, negativeToSub_node]
      · obtain ⟨rfl, rfl, parts⟩ := node.inj whole
        -- The negative that was written stays one, whatever becomes of the operand below it.
        have turned : negativeToSub symbols
            (binary symbols.add left (unary symbols.negative right)) =
              negativeToSubNode symbols (binary symbols.add (negativeToSub symbols left)
                (unary symbols.negative (negativeToSub symbols right))) := by
          rw [← negativeToSub_unary]
          exact negativeToSub_node symbols .binary symbols.add _
        rw [written, parts, turned, negativeToSubNode_sum]
        exact (negativeToSubNode_other symbols distinct _ _).symm

/-- The two passes undo each other: after both, the tree is what the second makes of it alone. -/
theorem passes_undo_each_other (distinct : symbols.sub ≠ symbols.add) (e : Expr) :
    negativeToSub symbols (subToNegative symbols e) = negativeToSub symbols e ∧
      subToNegative symbols (negativeToSub symbols e) = subToNegative symbols e :=
  ⟨negativeToSub_subToNegative symbols distinct e,
    subToNegative_negativeToSub symbols distinct.symm e⟩

/-- Subtractions and sums of negatives inside each other, `a - (b + (-(c - d)))`. -/
theorem passes_undo_each_other_nested :
    let symbols := SubtractionSymbols.usual
    let e := binary "-" (const "a")
      (binary "+" (const "b") (unary "-" (binary "-" (const "c") (const "d"))))
    let subtractions := binary "-" (const "a")
      (binary "-" (const "b") (binary "-" (const "c") (const "d")))
    let negatives := binary "+" (const "a") (unary "-" (binary "+" (const "b")
      (unary "-" (binary "+" (const "c") (unary "-" (const "d"))))))
    symbols.sub ≠ symbols.add ∧ subToNegative symbols e = negatives ∧
      negativeToSub symbols e = subtractions ∧
      negativeToSub symbols negatives = subtractions ∧
      subToNegative symbols subtractions = negatives := by
  intro symbols e subtractions negatives
  have distinct : symbols.sub ≠ symbols.add := by decide
  have sums : subToNegative symbols e = negatives := by decide +kernel
  have differences : negativeToSub symbols e = subtractions := by decide +kernel
  obtain ⟨forward, backward⟩ := passes_undo_each_other symbols distinct e
  rw [sums, differences] at forward
  rw [differences, sums] at backward
  exact ⟨distinct, sums, differences, forward, backward⟩

end Stepwise.Expr
