import Stepwise.Proofs.Expr.Grafting
import Stepwise.Proofs.Meaning.Model

/-!
Replacing what an address selects by something of the same value gives a tree of the same value.
For a pair of terms this rests on the operator of the train being associative.
-/

namespace Stepwise.Model

open Stepwise.Expr

universe u

variable {D : Type u} (M : Model D) (ν : String → D)

theorem value_congr {kind : Kind} {symbol : String} {children others : List Expr}
    (plain : (node kind symbol children).template? = none)
    (othersPlain : (node kind symbol others).template? = none)
    (same : others.map (M.value ν) = children.map (M.value ν)) :
    M.value ν (node kind symbol others) = M.value ν (node kind symbol children) := by
  by_cases isVar : kind = .var
  · subst isVar
    rw [value_var, value_var]
  · rw [value_node _ _ _ _ _ isVar plain, value_node _ _ _ _ _ isVar othersPlain, same]

variable {M ν} {allowed : Kind → String → Bool}
  (noMarkers : ∀ symbol, allowed .variadic symbol = false) {new : Expr}

include noMarkers

theorem template?_of_formed {kind : Kind} {symbol : String} {children : List Expr}
    (each : ∀ child ∈ children, child.Formed allowed) :
    (node kind symbol children).template? = none :=
  template?_of_no_marker fun child member =>
    ((each child member).markerFree noMarkers).isMarker_eq_false

theorem value_replacePair (newFormed : new.Formed allowed) {e target result : Expr} {index : Int}
    (formed : e.Formed allowed) (found : e.pairAt index = .ok target)
    (assoc : e.isTrain = true → M.Associates e.symbol) (same : M.value ν new = M.value ν target)
    (replaced : e.replacePair new index = .ok result) : M.value ν result = M.value ν e := by
  obtain ⟨symbol, before, left, right, after, rfl, rfl, rebuild⟩ := pairAt_cases found
  rw [rebuild] at replaced
  have grafted := newFormed.graft [left, right] formed replaced
  obtain rfl := eq_of_build replaced
  rw [value_node _ _ _ _ _ (by decide) (template?_of_formed noMarkers fun _ => grafted.child),
    value_node _ _ _ _ _ (by decide) (template?_of_formed noMarkers fun _ => formed.child)]
  simp only [List.map_append, List.map_cons, same, value_binary, apply]
  -- The pair was a node of its own inside the fold.
  exact leftFold_pair (assoc rfl) _ _ _ _

theorem value_replace (newFormed : new.Formed allowed) {path : List Int} {pair : Option Int}
    {e target result : Expr} (formed : e.Formed allowed)
    (resolved : e.resolve ⟨path, pair⟩ = .ok target)
    (assoc : ∀ index train, pair = some index → e.nodeAt path = .ok train →
      train.isTrain = true → M.Associates train.symbol)
    (same : M.value ν new = M.value ν target) (replaced : e.replace new ⟨path, pair⟩ = .ok result) :
    M.value ν result = M.value ν e := by
  induction path generalizing e result with
  | nil =>
      cases pair with
      | none =>
          obtain rfl := Except.ok.inj resolved
          obtain rfl := Except.ok.inj replaced
          exact same
      | some index =>
          exact value_replacePair noMarkers newFormed formed resolved (assoc index e rfl rfl) same
            replaced
  | cons index path ih =>
      have grafted := newFormed.replace formed ⟨target, resolved⟩ replaced
      obtain ⟨child, known, inner, below, rebuilt⟩ := replace_cons.mp replaced
      obtain ⟨_, sameChild, resolvedBelow⟩ := resolve_cons.mp resolved
      obtain rfl := Option.some.inj (known.symm.trans sameChild)
      have innerSame : M.value ν inner = M.value ν child :=
        ih (formed.childAt? known) resolvedBelow
          (fun place train set reached =>
            assoc place train set (nodeAt_cons.mpr ⟨child, known, reached⟩)) below
      obtain ⟨before, after, parts, others⟩ := childAt?_cases known
      obtain ⟨kind, symbol, children⟩ := e
      rw [children_node] at parts
      subst parts
      rw [others] at rebuilt
      obtain rfl := eq_of_build rebuilt
      apply value_congr
      · exact template?_of_formed noMarkers fun _ => formed.child
      · exact template?_of_formed noMarkers fun _ => grafted.child
      · simp [innerSame]

end Stepwise.Model
