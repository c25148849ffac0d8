import Stepwise.Proofs.Deduction.Shaped
import Stepwise.Proofs.Expr.Lens
import Stepwise.Proofs.Matching.FirstOrder

/-!
Steps by an equation without variadic trains can be taken back. The step puts the right side under
some substitution in the place of the left side under it; matching the right side against that finds
the substitution again, on every variable of the left side that occurs on the right. The subject may
have markers and variables of the same names.
-/

namespace Stepwise.Expr

theorem subst_injective {e : Expr} (plain : e.Plain) {σ τ : String → Expr}
    (shaped : (e.subst σ).WellShaped) (same : e.subst τ = e.subst σ) {name : String}
    (occurs : name ∈ e.variableNames) : τ name = σ name := by
  obtain ⟨bindings, found⟩ := (bindings?_isSome_iff_subst shaped plain.1 plain.2).mpr ⟨σ, rfl⟩
  have here := find?_of_subst shaped plain.1 plain.2 found rfl occurs
  have there := find?_of_subst shaped plain.1 plain.2 found same occurs
  exact Option.some.inj (there.symm.trans here)

section

variable {e image lhs rhs : Expr}

theorem exists_subst_of_byEquation (left : lhs.Plain) (right : rhs.Plain) (shaped : e.WellShaped)
    (stepped : e.byEquation (equation lhs rhs) = .ok image) :
    ∃ σ : String → Expr, lhs.subst σ = e ∧ rhs.subst σ = image ∧
      e.isMarker = false ∧ image.isMarker = false := by
  rw [byEquation_equation] at stepped
  rcases settle_eq_ok stepped with ⟨rfl, rfl⟩ |
    ⟨bindings, groundLhs, groundRhs, passes, found, builtLhs, builtRhs, leftRoot, rightRoot, same,
      later⟩
  · exact ⟨var, subst_var_self _ left.1, subst_var_self _ right.1, left.2.isMarker_eq_false,
      right.2.isMarker_eq_false⟩
  · have ground := instantiate_of_markerFree shaped left.1 left.2 found
    obtain rfl := Except.ok.inj (ground.symm.trans builtLhs)
    obtain rfl : passes = 7 := Nat.succ.inj same
    rw [settle_self] at later
    obtain rfl := Except.ok.inj later
    exact ⟨bindings.toSubst, subst_of_markerFree shaped left.1 left.2 found,
      subst_of_instantiate right.1 right.2 builtRhs, leftRoot, rightRoot⟩

theorem byConverse_of_subst (left : lhs.Plain) (right : rhs.Plain) (shaped : e.WellShaped)
    (imageShaped : image.WellShaped) (root : e.isMarker = false) (imageRoot : image.isMarker = false)
    (within : ∀ name ∈ lhs.variableNames, name ∈ rhs.variableNames) {σ : String → Expr}
    (leftSame : lhs.subst σ = e) (rightSame : rhs.subst σ = image) :
    image.byConverse (equation lhs rhs) = .ok e := by
  have agreeing {τ : String → Expr} (agree : ∀ name ∈ rhs.variableNames, τ name = σ name) :
      lhs.subst τ = e := by
    rw [← leftSame]
    exact subst_congr τ σ lhs fun name occurs =>
      agree name (within name ((mem_variableNames lhs name).mpr occurs))
  change settle image maxGroundings rhs lhs = .ok e
  by_cases ground : rhs = image
  · -- Nothing is matched; the substitution changes nothing on the right, and so on the left.
    have identity : lhs.subst var = e := agreeing fun name occurs =>
      subst_injective right (rightSame.symm ▸ imageShaped)
        ((subst_var_self rhs right.1).trans (ground.trans rightSame.symm)) occurs
    rw [subst_var_self lhs left.1] at identity
    rw [ground, identity]
    exact settle_self image e 7
  · obtain ⟨bindings, found⟩ :=
      (bindings?_isSome_iff_subst imageShaped right.1 right.2).mpr ⟨σ, rightSame⟩
    have recovered : lhs.subst bindings.toSubst = e := agreeing fun name occurs => by
      have bound := find?_of_subst imageShaped right.1 right.2 found rightSame occurs
      rw [Bindings.toSubst, bound, Option.getD_some]
    have built := instantiate_eq_subst bindings lhs left.1 (Or.inl left.2)
      (recovered.symm ▸ shaped)
    rw [recovered] at built
    exact settle_of_found 6 found ground
      (instantiate_of_markerFree imageShaped right.1 right.2 found) built imageRoot root

theorem byConverse_of_byEquation (left : lhs.Plain) (right : rhs.Plain) (shaped : e.WellShaped)
    (within : ∀ name ∈ lhs.variableNames, name ∈ rhs.variableNames)
    (stepped : e.byEquation (equation lhs rhs) = .ok image) :
    image.byConverse (equation lhs rhs) = .ok e ∧ e.isMarker = false ∧ image.isMarker = false := by
  obtain ⟨σ, leftSame, rightSame, root, imageRoot⟩ :=
    exists_subst_of_byEquation left right shaped stepped
  have imageShaped := wellShaped_of_settle shaped left.1 right.1 stepped
  exact ⟨byConverse_of_subst left right shaped imageShaped root imageRoot within leftSame rightSame,
    root, imageRoot⟩

end

section

variable {e result lhs rhs : Expr} {path : List Int}

theorem byConverseAt_of_byEquationAt (left : lhs.Plain) (right : rhs.Plain) (shaped : e.WellShaped)
    (within : ∀ name ∈ lhs.variableNames, name ∈ rhs.variableNames)
    (stepped : e.byEquationAt (equation lhs rhs) (.ofPath path) = .ok result) :
    result.byConverseAt (equation lhs rhs) (.ofPath path) = .ok e := by
  obtain ⟨target, resolved, stepped⟩ := Attempt.bind_eq_ok.mp stepped
  obtain ⟨image, turned, replaced⟩ := Attempt.bind_eq_ok.mp stepped
  have laws := nodeLaws_of_replace shaped replaced
  have back := byConverse_of_byEquation left right (shaped.resolve resolved) within turned
  exact Attempt.bind_eq_ok.mpr ⟨image, laws.reads,
    Attempt.bind_eq_ok.mpr ⟨target, back.1, (laws.putsBack target resolved).2⟩⟩

theorem byConverseAt_of_byEquationAt_pair (left : lhs.Plain) (right : rhs.Plain)
    (shaped : e.WellShaped) (within : ∀ name ∈ lhs.variableNames, name ∈ rhs.variableNames)
    {index : Int} (stepped : e.byEquationAt (equation lhs rhs) ⟨path, some index⟩ = .ok result) :
    ∃ symbol before first second after undone, index = ((before.length : Nat) : Int) ∧
      e.nodeAt path = .ok (train symbol (before ++ first :: second :: after)) ∧
      e.resolve ⟨path, some index⟩ = .ok (binary symbol first second) ∧
      e.replace (train symbol (before ++ binary symbol first second :: after)) (.ofPath path) =
        .ok undone ∧
      result.byConverseAt (equation lhs rhs) (.ofPath (path ++ [index])) = .ok undone := by
  obtain ⟨target, resolved, stepped⟩ := Attempt.bind_eq_ok.mp stepped
  obtain ⟨image, turned, replaced⟩ := Attempt.bind_eq_ok.mp stepped
  obtain ⟨back, root, imageRoot⟩ :=
    byConverse_of_byEquation left right (shaped.resolve resolved) within turned
  obtain ⟨part, _, reached, _⟩ := replace_pair_iff.mp replaced
  have putsIn {new : Expr} (operand : new.isMarker = false) :=
    (replace_pair_outcomes shaped operand reached index).resolve_right
      fun ⟨_, _, fails, _⟩ => fails.ne_ok target resolved
  obtain ⟨symbol, before, first, second, after, other, same, rfl, found, replacedToo, put⟩ :=
    putsIn imageRoot
  obtain rfl := Except.ok.inj (found.symm.trans resolved)
  obtain rfl := Except.ok.inj (replaced.symm.trans replacedToo)
  obtain ⟨undone, puts, _⟩ := exists_replace_node shaped reached
    (train symbol (before ++ binary symbol first second :: after)) fun marks => nomatch marks
  refine ⟨symbol, before, first, second, after, undone, same, reached, resolved, puts, ?_⟩
  have above := nodeAt_replace put
  have imageShaped := wellShaped_of_settle (shaped.resolve resolved) left.1 right.1 turned
  have trainShaped := (shaped.replace imageShaped replaced).nodeAt above
  subst same
  have reads : result.nodeAt (path ++ [(before.length : Int)]) = .ok image :=
    nodeAt_append.mpr ⟨_, above, nodeAt_term symbol before image after⟩
  have undoes : result.replace (binary symbol first second)
      (.ofPath (path ++ [(before.length : Int)])) = .ok undone :=
    replace_append.mpr ⟨_, _, above, replace_term trainShaped rfl,
      (replace_replace put _).trans puts⟩
  exact Attempt.bind_eq_ok.mpr ⟨image, resolve_ofPath.mpr reads,
    Attempt.bind_eq_ok.mpr ⟨_, back, undoes⟩⟩

end

/-- A step by an equation without variadic trains, whose left variables all occur on the right, is
taken back by its converse. A pair of terms that was rewritten comes back as the one binary node
that it was read as. -/
theorem converse_undoes (e lhs rhs : Expr) (shaped : e.WellShaped)
    (sides : (equation lhs rhs).WellShaped) (absent : ¬(equation lhs rhs).HasVariadicTrain)
    (within : ∀ name ∈ lhs.variableNames, name ∈ rhs.variableNames) (path : List Int)
    (result : Expr) :
    (e.byEquationAt (equation lhs rhs) ⟨path, none⟩ = .ok result →
      result.byConverseAt (equation lhs rhs) ⟨path, none⟩ = .ok e) ∧
    ∀ index, e.byEquationAt (equation lhs rhs) ⟨path, some index⟩ = .ok result →
      ∃ symbol before first second after undone, index = ((before.length : Nat) : Int) ∧
        e.nodeAt path = .ok (train symbol (before ++ first :: second :: after)) ∧
        e.resolve ⟨path, some index⟩ = .ok (binary symbol first second) ∧
        e.replace (train symbol (before ++ binary symbol first second :: after)) ⟨path, none⟩ =
          .ok undone ∧
        result.byConverseAt (equation lhs rhs) ⟨path ++ [index], none⟩ = .ok undone := by
  obtain ⟨left, right⟩ := statement_plain sides absent
  exact ⟨byConverseAt_of_byEquationAt left right shaped within,
    fun _ => byConverseAt_of_byEquationAt_pair left right shaped within⟩

/-- Two terms are exchanged by a law with a free variable on its right, whose names the subject
uses as well. -/
theorem converse_undoes_exchange :
    let law := equation (binary "+" (var "X") (var "Y"))
      (binary "+" (binary "+" (var "Y") (var "X")) (binary "*" (var "Z") (const "0")))
    let e := unary "-" (train "+" [const "2", var "Y", var "X"])
    let result := unary "-" (train "+" [const "2",
      binary "+" (binary "+" (var "X") (var "Y")) (binary "*" (var "Z") (const "0"))])
    e.byEquationAt law ⟨[0], some 1⟩ = .ok result ∧
      ∃ symbol before first second after undone, (1 : Int) = ((before.length : Nat) : Int) ∧
        e.nodeAt [0] = .ok (train symbol (before ++ first :: second :: after)) ∧
        e.resolve ⟨[0], some 1⟩ = .ok (binary symbol first second) ∧
        e.replace (train symbol (before ++ binary symbol first second :: after)) ⟨[0], none⟩ =
          .ok undone ∧
        result.byConverseAt law ⟨[0, 1], none⟩ = .ok undone := by
  intro law e result
  have stepped : e.byEquationAt law ⟨[0], some 1⟩ = .ok result := by decide +kernel
  exact ⟨stepped, (converse_undoes e _ _ (by decide) (by decide) (by decide) (by decide) [0]
    result).2 1 stepped⟩

end Stepwise.Expr
