import Stepwise.Proofs.Expr.Formed
import Stepwise.Proofs.Expr.Selection

/-!
What an address selects in a formed tree is formed, and so is the tree with something formed in its
place.
-/

namespace Stepwise.Expr

section

variable {allowed : Kind → String → Bool}

theorem Formed.childAt? {e child : Expr} (formed : e.Formed allowed) {index : Int}
    (found : e.childAt? index = some child) : child.Formed allowed := by
  obtain ⟨before, after, parts, _⟩ := childAt?_cases found
  obtain ⟨kind, symbol, children⟩ := e
  rw [children_node] at parts
  exact formed.child (by simp [parts])

theorem Formed.nodeAt {e target : Expr} {path : List Int} (formed : e.Formed allowed)
    (reached : e.nodeAt path = .ok target) : target.Formed allowed := by
  induction path generalizing e with
  | nil => exact Except.ok.inj reached ▸ formed
  | cons index path ih =>
      obtain ⟨child, known, below⟩ := nodeAt_cons.mp reached
      exact ih (formed.childAt? known) below

theorem Formed.pairAt (binaries : ∀ symbol, allowed .binary symbol = true) {e target : Expr}
    {index : Int} (formed : e.Formed allowed) (found : e.pairAt index = .ok target) :
    target.Formed allowed := by
  obtain ⟨symbol, before, left, right, after, rfl, rfl, _⟩ := pairAt_cases found
  rw [Expr.binary, formed_node]
  refine ⟨⟨rfl, binaries symbol⟩, ?_⟩
  intro child member
  apply formed.child
  simp only [List.mem_cons, List.not_mem_nil, or_false] at member
  rcases member with rfl | rfl
  all_goals simp

theorem Formed.resolve (binaries : ∀ symbol, allowed .binary symbol = true) {e target : Expr}
    {address : Address} (formed : e.Formed allowed) (resolved : e.resolve address = .ok target) :
    target.Formed allowed := by
  obtain ⟨inner, reached, selected⟩ := Attempt.bind_eq_ok.mp resolved
  have innerFormed := formed.nodeAt reached
  split at selected
  · exact Except.ok.inj selected ▸ innerFormed
  · exact innerFormed.pairAt binaries selected

theorem Formed.graft {new : Expr} (newFormed : new.Formed allowed) (middle : List Expr)
    {kind : Kind} {symbol : String} {before after : List Expr}
    (formed : (node kind symbol (before ++ (middle ++ after))).Formed allowed) {result : Expr}
    (built : build kind symbol (before ++ new :: after) = .ok result) : result.Formed allowed := by
  refine formed_of_build built ((formed_node _ _ _).mp formed).1.2 ?_
  intro child member
  simp only [List.mem_append, List.mem_cons] at member
  rcases member with inBefore | rfl | inAfter
  · exact formed.child (by simp [inBefore])
  · exact newFormed
  · exact formed.child (by simp [inAfter])

theorem Formed.replace {e new result : Expr} (newFormed : new.Formed allowed) {path : List Int}
    {pair : Option Int} (formed : e.Formed allowed)
    (resolved : ∃ target, e.resolve ⟨path, pair⟩ = .ok target)
    (replaced : e.replace new ⟨path, pair⟩ = .ok result) : result.Formed allowed := by
  induction path generalizing e result with
  | nil =>
      cases pair with
      | none => exact Except.ok.inj replaced ▸ newFormed
      | some index =>
          obtain ⟨target, found⟩ := resolved
          obtain ⟨symbol, before, left, right, after, rfl, _, rebuild⟩ := pairAt_cases found
          rw [replace_pair, rebuild] at replaced
          exact newFormed.graft [left, right] formed replaced
  | cons index path ih =>
      obtain ⟨child, known, inner, below, rebuilt⟩ := replace_cons.mp replaced
      obtain ⟨target, found⟩ := resolved
      obtain ⟨_, same, foundBelow⟩ := resolve_cons.mp found
      obtain rfl := Option.some.inj (known.symm.trans same)
      have innerFormed := ih (formed.childAt? known) ⟨target, foundBelow⟩ below
      obtain ⟨before, after, parts, others⟩ := childAt?_cases known
      obtain ⟨kind, symbol, children⟩ := e
      rw [children_node] at parts
      subst parts
      rw [others] at rebuilt
      exact innerFormed.graft [child] formed rebuilt

end

end Stepwise.Expr
