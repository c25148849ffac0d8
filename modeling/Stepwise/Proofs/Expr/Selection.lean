import Stepwise.Proofs.Expr.Places

/-!
What an address selects and where it grafts, one step of its path at a time: a path goes on below a
child, and at its end stands the node itself or, for a pair, the binary node of two neighbouring
terms of a train.
-/

namespace Stepwise.Expr

theorem nodeAtFrom_ok_irrel {root other : Expr} {depth count : Nat} {path : List Int}
    {e target : Expr} (found : nodeAtFrom root depth e path = .ok target) :
    nodeAtFrom other count e path = .ok target := by
  induction path generalizing depth count e with
  | nil => exact found
  | cons index path ih =>
      rw [nodeAtFrom] at found ⊢
      split at found
      · exact ih found
      · exact absurd found (Attempt.stepFault_ne_ok _ _)

theorem nodeAt_cons {e target : Expr} {index : Int} {path : List Int} :
    e.nodeAt (index :: path) = .ok target ↔
      ∃ child, e.childAt? index = some child ∧ child.nodeAt path = .ok target := by
  rw [nodeAt, nodeAtFrom]
  constructor
  · intro found
    split at found
    · rename_i child known
      exact ⟨child, known, nodeAtFrom_ok_irrel found⟩
    · exact absurd found (Attempt.stepFault_ne_ok _ _)
  · rintro ⟨child, known, below⟩
    rw [known]
    exact nodeAtFrom_ok_irrel below

theorem nodeAt_append {e target : Expr} {path rest : List Int} :
    e.nodeAt (path ++ rest) = .ok target ↔
      ∃ part, e.nodeAt path = .ok part ∧ part.nodeAt rest = .ok target := by
  induction path generalizing e with
  | nil => simp [nodeAt, nodeAtFrom]
  | cons index path ih =>
      simp only [List.cons_append, nodeAt_cons, ih]
      constructor
      · rintro ⟨child, known, part, reached, found⟩
        exact ⟨part, ⟨child, known, reached⟩, found⟩
      · rintro ⟨part, ⟨child, known, reached⟩, found⟩
        exact ⟨child, known, part, reached, found⟩

theorem childAt?_eq_some_iff {e child : Expr} {index : Int} :
    e.childAt? index = some child ↔ ∃ place : Nat, index = place ∧ e.children[place]? = some child := by
  unfold childAt? Index.forward?
  constructor
  · intro found
    split at found
    · exact ⟨index.toNat, by omega, found⟩
    · simp at found
  · rintro ⟨place, rfl, known⟩
    simpa using known

theorem resolve_cons {e target : Expr} {index : Int} {path : List Int} {pair : Option Int} :
    e.resolve ⟨index :: path, pair⟩ = .ok target ↔
      ∃ child, e.childAt? index = some child ∧ child.resolve ⟨path, pair⟩ = .ok target := by
  unfold resolve
  rw [Attempt.bind_eq_ok]
  constructor
  · rintro ⟨node, reached, selected⟩
    obtain ⟨child, known, below⟩ := nodeAt_cons.mp reached
    exact ⟨child, known, Attempt.bind_eq_ok.mpr ⟨node, below, selected⟩⟩
  · rintro ⟨child, known, found⟩
    obtain ⟨node, below, selected⟩ := Attempt.bind_eq_ok.mp found
    exact ⟨node, nodeAt_cons.mpr ⟨child, known, below⟩, selected⟩

theorem replace_pair (e new : Expr) (index : Int) :
    e.replace new ⟨[], some index⟩ = e.replacePair new index := rfl

theorem replace_cons {e new result : Expr} {index : Int} {path : List Int} {pair : Option Int} :
    e.replace new ⟨index :: path, pair⟩ = .ok result ↔
      ∃ child, e.childAt? index = some child ∧ ∃ inner, child.replace new ⟨path, pair⟩ = .ok inner ∧
        e.withChildren (e.children.set index.toNat inner) = .ok result := by
  rw [replace, replaceFrom]
  constructor
  · intro replaced
    split at replaced
    · exact absurd replaced (Attempt.stepFault_ne_ok _ _)
    · rename_i child known
      exact ⟨child, known, Attempt.bind_eq_ok.mp replaced⟩
  · rintro ⟨child, known, rest⟩
    rw [known]
    exact Attempt.bind_eq_ok.mpr rest

theorem WellShaped.term_isMarker_eq_false {kind : Kind} {symbol : String} {terms : List Expr}
    (shaped : (node kind symbol terms).WellShaped) (several : 2 ≤ terms.length) {term : Expr}
    (member : term ∈ terms) : term.isMarker = false := by
  rw [Bool.eq_false_iff]
  intro marks
  have alone := ((shapeFault?_eq_none_iff kind terms).mp
    ((wellShaped_node kind symbol terms).mp shaped).1).2 term member marks
  omega

theorem take_two {place : Nat} {left right : Expr} {terms : List Expr}
    (first : terms[place]? = some left) (second : terms[place + 1]? = some right) :
    (terms.drop place).take 2 = [left, right] := by
  obtain ⟨bound, rfl⟩ := List.getElem?_eq_some_iff.mp first
  obtain ⟨nextBound, rfl⟩ := List.getElem?_eq_some_iff.mp second
  rw [List.drop_eq_getElem_cons bound, List.drop_eq_getElem_cons nextBound]
  rfl

theorem pairAt_eq_ok_iff {kind : Kind} {symbol : String} {terms : List Expr}
    (shaped : (node kind symbol terms).WellShaped) {index : Int} {target : Expr} :
    (node kind symbol terms).pairAt index = .ok target ↔
      kind = .train ∧ ∃ (place : Nat) (left right : Expr), index = place ∧
        terms[place]? = some left ∧ terms[place + 1]? = some right ∧
        target = binary symbol left right := by
  rw [pairAt, children_node, symbol_node]
  constructor
  · intro found
    split at found
    · rename_i isTrain
      split at found
      · exact absurd found (Attempt.stepFault_ne_ok _ _)
      · rename_i within
        have bound : index.toNat + 1 < terms.length := by omega
        have first := List.getElem?_eq_getElem (by omega : index.toNat < terms.length)
        have second := List.getElem?_eq_getElem bound
        rw [take_two first second] at found
        exact ⟨of_decide_eq_true isTrain, index.toNat, _, _, by omega, first, second,
          eq_of_build found⟩
    · exact absurd found (Attempt.stepFault_ne_ok _ _)
  · rintro ⟨rfl, place, left, right, rfl, first, second, rfl⟩
    have bound := (List.getElem?_eq_some_iff.mp second).1
    have single {term : Expr} (member : term ∈ terms) : term.isMarker = false :=
      shaped.term_isMarker_eq_false (by omega) member
    rw [if_pos (by rfl : (node .train symbol terms).isTrain = true), if_neg (by omega),
      Int.toNat_natCast, take_two first second]
    exact build_two (Or.inl rfl) symbol (single (List.mem_of_getElem? first))
      (single (List.mem_of_getElem? second))

end Stepwise.Expr
