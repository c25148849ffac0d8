import Stepwise.Proofs.Algebra.Shaped

/-!
Whether something stands at the two addresses that a step is offered for. Two factors that are
cancelled are both looked up. For the same on both sides of an equation the first one is, but the
side and its operand may be counted from the end, and nothing is asked of the rest of the second
address. For an exchange the operation around both addresses is looked up, and in a group the two
terms; of the two operands of a binary operation neither has to be there.
-/

namespace Stepwise.Expr

variable {e parent child : Expr} {path rest : List Int} {index : Int}

def Leads (e : Expr) (path : List Int) : Prop := ∃ part, e.nodeAt path = .ok part

def Resolves (e : Expr) (address : Address) : Prop := ∃ part, e.resolve address = .ok part

theorem resolves_iff_leads {address : Address} (unpaired : address.pair = none) :
    e.Resolves address ↔ e.Leads address.path := by
  obtain ⟨path, pair⟩ := address
  obtain rfl : pair = none := unpaired
  exact exists_congr fun part => by simp [resolve]

theorem leads_cons_iff :
    e.Leads (index :: rest) ↔ ∃ child, e.childAt? index = some child ∧ child.Leads rest := by
  simp only [Leads, nodeAt_cons]
  constructor
  · rintro ⟨part, child, known, reached⟩
    exact ⟨child, known, part, reached⟩
  · rintro ⟨child, known, part, reached⟩
    exact ⟨part, child, known, reached⟩

theorem leads_append_iff (reached : e.nodeAt path = .ok parent) :
    e.Leads (path ++ rest) ↔ parent.Leads rest := by
  simp only [Leads, nodeAt_append]
  constructor
  · rintro ⟨part, other, passed, found⟩
    obtain rfl := Except.ok.inj (reached.symm.trans passed)
    exact ⟨part, found⟩
  · rintro ⟨part, found⟩
    exact ⟨part, parent, reached, found⟩

theorem leads_cons_of_get? (found : Index.get? e.children index = some child) :
    e.Leads (index :: rest) ↔ 0 ≤ index ∧ child.Leads rest := by
  have same (forward : 0 ≤ index) : e.childAt? index = some child := by
    obtain ⟨place, rfl⟩ := Int.eq_ofNat_of_zero_le forward
    rw [Index.get?_natCast] at found
    exact childAt?_eq_some_iff.mpr ⟨place, rfl, found⟩
  rw [leads_cons_iff]
  constructor
  · rintro ⟨other, known, below⟩
    obtain ⟨place, rfl, _⟩ := childAt?_eq_some_iff.mp known
    have forward : 0 ≤ (place : Int) := Int.natCast_nonneg place
    obtain rfl := Option.some.inj ((same forward).symm.trans known)
    exact ⟨forward, below⟩
  · rintro ⟨forward, below⟩
    exact ⟨child, same forward, below⟩

variable {pivot target : Address} {found : List Suggestion}

theorem fractionActions_leads (offered : e.fractionActions pivot target = .ok found)
    (nonempty : found ≠ []) : e.Leads pivot.path ∧ e.Leads target.path := by
  obtain ⟨first, reached, offered⟩ := Attempt.bind_eq_ok.mp offered
  split at offered
  · obtain ⟨second, alsoReached, _⟩ := Attempt.bind_eq_ok.mp offered
    exact ⟨⟨first, reached⟩, second, alsoReached⟩
  · exact absurd (Except.ok.inj offered).symm nonempty

/-- The second address goes on from the first one to an operand of a side, each counted from the
start or from the end, and from there along the rest. -/
structure NamesOperand (e : Expr) (pivot target : Address) (side operand : Int) (rest : List Int)
    (part : Expr) : Prop where
  below : target.path = pivot.path ++ side :: operand :: rest
  named : ∃ statement term, e.nodeAt pivot.path = .ok statement ∧ statement.isEquation = true ∧
    Index.get? statement.children side = some term ∧ Index.get? term.children operand = some part

theorem NamesOperand.leads_iff {side operand : Int} {part : Expr}
    (names : e.NamesOperand pivot target side operand rest part) :
    e.Leads target.path ↔ 0 ≤ side ∧ 0 ≤ operand ∧ part.Leads rest := by
  obtain ⟨statement, term, reached, _, inStatement, inTerm⟩ := names.named
  rw [names.below, leads_append_iff reached, leads_cons_of_get? inStatement,
    leads_cons_of_get? inTerm]

theorem exists_namesOperand (offered : e.bothSideActions pivot target = .ok found)
    (nonempty : found ≠ []) :
    ∃ side operand rest part, e.NamesOperand pivot target side operand rest part := by
  obtain ⟨⟨action, result⟩, member⟩ := List.exists_mem_of_ne_nil found nonempty
  have steps := (@bothSideActions_finds e [] pivot target).value offered
  cases steps (action, result) member with
  | intro parts reached isEquation present _ selected _ _ _ =>
      exact ⟨_, _, _, _, parts, _, _, reached, isEquation, present, selected⟩

theorem commonPath_prefix (p q : List Int) : commonPath p q <+: p ∧ commonPath p q <+: q := by
  induction p generalizing q with
  | nil => exact ⟨List.nil_prefix, List.nil_prefix⟩
  | cons i p ih =>
      cases q with
      | nil => exact ⟨List.nil_prefix, List.nil_prefix⟩
      | cons j q =>
          rw [commonPath]
          split
          · rename_i same
            subst same
            exact ⟨List.cons_prefix_cons.mpr ⟨rfl, (ih q).1⟩,
              List.cons_prefix_cons.mpr ⟨rfl, (ih q).2⟩⟩
          · exact ⟨List.nil_prefix, List.nil_prefix⟩

/-- The addresses part below a sum or a product, and go on from there with an index each. In a group
there are terms at these indices. -/
structure NamesOperands (e : Expr) (pivot target : Address) (parent : Expr) (i j : Int)
    (p q : List Int) : Prop where
  one : pivot.path = commonPath pivot.path target.path ++ i :: p
  other : target.path = commonPath pivot.path target.path ++ j :: q
  reached : e.nodeAt (commonPath pivot.path target.path) = .ok parent
  commutes : parent.symbol ∈ commutativeSymbols
  joins : parent.kind = .train ∨ parent.kind = .binary
  terms : parent.kind = .train → (parent.childAt? i).isSome ∧ (parent.childAt? j).isSome

theorem NamesOperands.leads_iff {i j : Int} {p q : List Int}
    (names : e.NamesOperands pivot target parent i j p q) :
    (e.Leads pivot.path ↔ ∃ term, parent.childAt? i = some term ∧ term.Leads p) ∧
      (e.Leads target.path ↔ ∃ term, parent.childAt? j = some term ∧ term.Leads q) := by
  have below {rest : List Int} := @leads_append_iff e parent _ rest names.reached
  constructor
  · rw [← leads_cons_iff, ← below, ← names.one]
  · rw [← leads_cons_iff, ← below, ← names.other]

theorem isSome_childAt? {index : Int} (lower : 0 ≤ index) (upper : index < parent.children.length) :
    (parent.childAt? index).isSome := by
  obtain ⟨place, rfl⟩ := Int.eq_ofNat_of_zero_le lower
  have inside : place < parent.children.length := by omega
  rw [childAt?_eq_some_iff.mpr ⟨place, rfl, List.getElem?_eq_getElem inside⟩]
  rfl

theorem terms_of_reordered? {swapped : Expr} {i j : Int}
    (exchanged : parent.reordered? i j = .ok (some swapped)) (isTrain : parent.kind = .train) :
    (parent.childAt? i).isSome ∧ (parent.childAt? j).isSome := by
  have train : parent.isTrain = true := decide_eq_true isTrain
  unfold reordered? at exchanged
  split at exchanged
  · rw [swapTerms, if_pos train] at exchanged
    split at exchanged
    · rename_i inside
      exact ⟨isSome_childAt? inside.1 inside.2.1, isSome_childAt? inside.2.2.1 inside.2.2.2⟩
    · simp [Attempt.stepFault, Except.map] at exchanged
  · simp at exchanged

theorem exists_namesOperands (offered : e.reorderActions pivot target = .ok found)
    (nonempty : found ≠ []) :
    ∃ parent i j p q, e.NamesOperands pivot target parent i j p q := by
  obtain ⟨one, other⟩ := commonPath_prefix pivot.path target.path
  have one := List.prefix_iff_eq_append.mp one
  have other := List.prefix_iff_eq_append.mp other
  unfold reorderActions at offered
  dsimp only at offered
  split at offered
  · rename_i i p j q below alsoBelow
    rw [below] at one
    rw [alsoBelow] at other
    obtain ⟨parent, reached, offered⟩ := Attempt.bind_eq_ok.mp offered
    obtain ⟨outcome, exchanged, offered⟩ := Attempt.bind_eq_ok.mp offered
    cases outcome with
    | none => exact absurd (Except.ok.inj offered).symm nonempty
    | some swapped =>
        obtain ⟨_, _, _, commutes, joins⟩ := reordered?_eq_ok exchanged
        exact ⟨parent, i, j, p, q, one.symm, other.symm, reached, commutes, joins,
          terms_of_reordered? exchanged⟩
  · exact absurd (Except.ok.inj offered).symm nonempty

/-- For two addresses without pairs: both are there if the step cancels two factors. If it is done
on both sides of an equation the first one is there, and the second one exactly if it counts the
side and the operand from the start and its rest leads somewhere below the operand. If it is an
exchange of two operands each address is there exactly if its index is that of an operand, as it is
in a group, and its rest leads somewhere below that. -/
theorem offered_positions (e : Expr) (pivot target : Address)
    (unpaired : pivot.pair = none ∧ target.pair = none) (found : List Suggestion) :
    (e.fractionActions pivot target = .ok found → found ≠ [] →
        e.Resolves pivot ∧ e.Resolves target) ∧
      (e.bothSideActions pivot target = .ok found → found ≠ [] → e.Resolves pivot ∧
        ∃ side operand rest part, e.NamesOperand pivot target side operand rest part ∧
          (e.Resolves target ↔ 0 ≤ side ∧ 0 ≤ operand ∧ part.Leads rest)) ∧
      (e.reorderActions pivot target = .ok found → found ≠ [] →
        ∃ parent i j p q, e.NamesOperands pivot target parent i j p q ∧
          (e.Resolves pivot ↔ ∃ term, parent.childAt? i = some term ∧ term.Leads p) ∧
          (e.Resolves target ↔ ∃ term, parent.childAt? j = some term ∧ term.Leads q)) := by
  rw [resolves_iff_leads unpaired.1, resolves_iff_leads unpaired.2]
  refine ⟨fractionActions_leads, fun offered nonempty => ?_, fun offered nonempty => ?_⟩
  · obtain ⟨side, operand, rest, part, names⟩ := exists_namesOperand offered nonempty
    obtain ⟨statement, _, reached, _⟩ := names.named
    exact ⟨⟨statement, reached⟩, side, operand, rest, part, names, names.leads_iff⟩
  · obtain ⟨parent, i, j, p, q, names⟩ := exists_namesOperands offered nonempty
    exact ⟨parent, i, j, p, q, names, names.leads_iff⟩

/-- Taking the second summand off the left side. -/
theorem offered_positions_summand :
    let e := equation (binary "+" (var "x") (const "1")) (const "2")
    let result := equation (binary "-" (binary "+" (var "x") (const "1")) (const "1"))
      (binary "-" (const "2") (const "1"))
    e.bothSideActions .root ⟨[0, 1], none⟩ =
        .ok [(.step "Apply -1 to both side", result)] ∧
      e.Resolves .root ∧ e.Resolves ⟨[0, 1], none⟩ := by
  intro e result
  have offered : e.bothSideActions .root ⟨[0, 1], none⟩ =
      .ok [(.step "Apply -1 to both side", result)] := by
    decide +kernel
  obtain ⟨first, side, operand, rest, part, names, second⟩ :=
    (offered_positions e .root ⟨[0, 1], none⟩ ⟨rfl, rfl⟩ _).2.1 offered (by simp)
  obtain ⟨rfl, rfl, rfl⟩ : side = 0 ∧ operand = 1 ∧ rest = [] := by
    simpa [Address.root, eq_comm] using names.below
  exact ⟨offered, first, second.mpr ⟨by decide, by decide, part, rfl⟩⟩

/-- Steps for addresses at which nothing stands: an operand of a side that is counted from the end,
something below an operand that is a variable, and the sixth and the eighth operand of two. -/
theorem offered_nowhere :
    let sum := binary "+" (var "x") (const "1")
    let e := equation sum (const "2")
    let result := equation (binary "-" sum (var "x")) (binary "-" (const "2") (var "x"))
    (e.bothSideActions .root ⟨[-2, 0], none⟩ = .ok [(.step "Apply -x to both side", result)] ∧
        ¬e.Resolves ⟨[-2, 0], none⟩) ∧
      (e.bothSideActions .root ⟨[0, 0, 7], none⟩ =
          .ok [(.step "Apply -x to both side", result)] ∧
        ¬e.Resolves ⟨[0, 0, 7], none⟩) ∧
      sum.reorderActions ⟨[5], none⟩ ⟨[7], none⟩ =
          .ok [(.step "Reorder", binary "+" (const "1") (var "x"))] ∧
        ¬sum.Resolves ⟨[5], none⟩ ∧ ¬sum.Resolves ⟨[7], none⟩ := by
  intro sum e result
  refine ⟨⟨by decide +kernel, ?_⟩, ⟨by decide +kernel, ?_⟩, by decide +kernel, ?_, ?_⟩
  all_goals exact fun ⟨_, resolved⟩ => nomatch resolved

end Stepwise.Expr
