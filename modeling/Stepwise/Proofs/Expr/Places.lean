import Stepwise.Expr.Position
import Stepwise.Proofs.Attempt
import Stepwise.Proofs.Expr.Nodes

/-!
Places in a tree without indices: a child stands between the children before and after it, and a
pair of neighbouring terms of a train between the terms before and after the two.
-/

namespace Stepwise.Expr

theorem eq_of_build {kind : Kind} {symbol : String} {children : List Expr} {e : Expr}
    (built : build kind symbol children = .ok e) : e = node kind symbol children := by
  unfold build at built
  split at built
  · simp at built
  · exact (Except.ok.inj built).symm

theorem build_of_shape {kind : Kind} {children : List Expr}
    (fits : shapeFault? kind children = none) (symbol : String) :
    build kind symbol children = .ok (node kind symbol children) := by
  rw [build, fits]

theorem build_two {kind : Kind} (twoSided : kind = .binary ∨ kind = .statement) (symbol : String)
    {first second : Expr} (left : first.isMarker = false) (right : second.isMarker = false) :
    build kind symbol [first, second] = .ok (node kind symbol [first, second]) := by
  have count : countFault? kind 2 = none := by
    rcases twoSided with rfl | rfl
    all_goals rfl
  refine build_of_shape ((shapeFault?_eq_none_iff _ _).mpr ?_) symbol
  simp [count, left, right]

theorem childAt?_cases {e child : Expr} {index : Int} (found : e.childAt? index = some child) :
    ∃ before after, e.children = before ++ child :: after ∧
      ∀ new, e.children.set index.toNat new = before ++ new :: after := by
  unfold childAt? Index.forward? at found
  split at found
  · obtain ⟨bound, rfl⟩ := List.getElem?_eq_some_iff.mp found
    refine ⟨e.children.take index.toNat, e.children.drop (index.toNat + 1), ?_, ?_⟩
    · rw [← List.drop_eq_getElem_cons bound, List.take_append_drop]
    · intro new
      rw [List.set_eq_take_append_cons_drop, if_pos bound]
  · simp at found

theorem pairAt_cases {e target : Expr} {index : Int} (found : e.pairAt index = .ok target) :
    ∃ symbol before left right after, e = node .train symbol (before ++ left :: right :: after) ∧
      target = binary symbol left right ∧
      ∀ new, e.replacePair new index = build .train symbol (before ++ new :: after) := by
  obtain ⟨kind, symbol, children⟩ := e
  unfold pairAt at found
  split at found
  · rename_i isTrain
    have kindEq : kind = .train := of_decide_eq_true isTrain
    subst kindEq
    split at found
    · exact absurd found (Attempt.stepFault_ne_ok _ _)
    · rename_i within
      have inside : ¬(index < 0 ∨ (children.length : Int) ≤ index + 1) := within
      rw [children_node] at found
      have first : index.toNat < children.length := by omega
      have second : index.toNat + 1 < children.length := by omega
      have parts : children.drop index.toNat =
          children[index.toNat] :: children[index.toNat + 1] :: children.drop (index.toNat + 2) := by
        rw [List.drop_eq_getElem_cons first, List.drop_eq_getElem_cons second]
      refine ⟨symbol, children.take index.toNat, children[index.toNat], children[index.toNat + 1],
        children.drop (index.toNat + 2), ?_, ?_, ?_⟩
      · rw [← parts, List.take_append_drop]
      · rw [parts] at found
        exact eq_of_build found
      · intro new
        rw [replacePair, if_pos isTrain, if_neg within]
        rfl
  · exact absurd found (Attempt.stepFault_ne_ok _ _)

end Stepwise.Expr
