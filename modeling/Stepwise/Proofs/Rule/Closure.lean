import Stepwise.Proofs.Rule.Forms

/-!
What the loop over the forms of a statement has when it ends. Its left sides start with the given
one and each comes from an earlier one; none is an instance of an earlier one, and the variations
lead to nothing but instances of them.
-/

namespace Stepwise.Expr

def IsVaried (variations lefts : List Expr) (left : Expr) : Prop :=
  ∀ variation ∈ variations, ∀ varied, left.byEquation variation = .ok varied →
    varied ∈ lefts ∨ ∃ known ∈ lefts, varied.isInstanceOf known = .ok true

structure IsDerived (variations : List Expr) (lhs : Expr) (lefts : List Expr) : Prop where
  first : lefts.head? = some lhs
  derived : ∀ place left, 0 < place → lefts[place]? = some left →
    ∃ known ∈ lefts.take place, ∃ variation ∈ variations, known.byEquation variation = .ok left
  irredundant : lefts.Pairwise fun earlier later => later.isInstanceOf earlier = .ok false

structure IsClosure (variations : List Expr) (lhs : Expr) (lefts : List Expr) : Prop
    extends IsDerived variations lhs lefts where
  closed : ∀ left ∈ lefts, IsVaried variations lefts left

section

variable {variations lefts : List Expr} {lhs left varied : Expr}

theorem IsVaried.append (done : IsVaried variations lefts left) (more : List Expr) :
    IsVaried variations (lefts ++ more) left := by
  intro variation listed varied turned
  rcases done variation listed varied turned with known | ⟨known, member, covered⟩
  · exact Or.inl (List.mem_append_left more known)
  · exact Or.inr ⟨known, List.mem_append_left more member, covered⟩

theorem IsDerived.start (variations : List Expr) (lhs : Expr) :
    IsDerived variations lhs [lhs] := by
  refine ⟨rfl, fun place left later here => ?_, List.pairwise_singleton _ _⟩
  rw [List.getElem?_eq_none (by rwa [List.length_singleton])] at here
  simp at here

theorem IsDerived.add (made : IsDerived variations lhs lefts) (known : left ∈ lefts)
    {variation : Expr} (listed : variation ∈ variations)
    (turned : left.byEquation variation = .ok varied)
    (new : ∀ earlier ∈ lefts, varied.isInstanceOf earlier = .ok false) :
    IsDerived variations lhs (lefts ++ [varied]) := by
  refine ⟨?_, fun place later positive here => ?_, ?_⟩
  · rw [List.head?_append, made.first, Option.some_or]
  · by_cases inside : place < lefts.length
    · rw [List.getElem?_append_left inside] at here
      rw [List.take_append_of_le_length (Nat.le_of_lt inside)]
      exact made.derived place later positive here
    · -- The last place.
      rw [List.getElem?_append_right (Nat.le_of_not_lt inside), List.getElem?_singleton] at here
      split at here
      next last =>
        obtain rfl : place = lefts.length := by omega
        obtain rfl := Option.some.inj here
        rw [List.take_left]
        exact ⟨left, known, variation, listed, turned⟩
      next => simp at here
  · refine List.pairwise_append.mpr ⟨made.irredundant, List.pairwise_singleton _ _, ?_⟩
    simpa using new

end

section

variable {variations lefts : List Expr} {symbol : String} {lhs rhs left varied : Expr}

theorem isCovered_true
    (answer : isCovered varied (lefts.map (formOf symbol rhs)) = .ok true) :
    ∃ known ∈ lefts, varied.isInstanceOf known = .ok true := by
  induction lefts with
  | nil => simp [isCovered] at answer
  | cons known rest ih =>
      obtain ⟨tested, test, later⟩ := Attempt.bind_eq_ok.mp answer
      cases tested with
      | true => exact ⟨known, by simp, test⟩
      | false =>
          obtain ⟨other, member, covers⟩ := ih later
          exact ⟨other, by simp [member], covers⟩

theorem isCovered_false
    (answer : isCovered varied (lefts.map (formOf symbol rhs)) = .ok false) :
    ∀ known ∈ lefts, varied.isInstanceOf known = .ok false := by
  induction lefts with
  | nil => simp
  | cons known rest ih =>
      obtain ⟨tested, test, later⟩ := Attempt.bind_eq_ok.mp answer
      cases tested with
      | true => exact absurd (Except.ok.inj later) (by simp)
      | false => exact List.forall_mem_cons.mpr ⟨test, ih later⟩

theorem varyLhs_derives {start : Expr} {rest results : List Expr} (within : rest ⊆ variations)
    (made : IsDerived variations lhs lefts) (known : left ∈ lefts)
    (finished : varyLhs (formOf symbol rhs start) left rhs (lefts.map (formOf symbol rhs)) rest =
      .ok results) :
    ∃ more, results = (lefts ++ more).map (formOf symbol rhs) ∧
      IsDerived variations lhs (lefts ++ more) ∧ IsVaried rest (lefts ++ more) left := by
  induction rest generalizing lefts with
  | nil =>
      refine ⟨[], ?_, ?_, by simp [IsVaried]⟩
      · rw [List.append_nil]
        exact (Except.ok.inj finished).symm
      · rwa [List.append_nil]
  | cons variation rest ih =>
      obtain ⟨listed, later⟩ := List.cons_subset.mp within
      rcases varyLhs_cases finished with
        ⟨further, covered⟩ | ⟨varied, form, turned, answer, built, further⟩
      · obtain ⟨more, same, derived, others⟩ := ih later made known further
        refine ⟨more, same, derived, List.forall_mem_cons.mpr ⟨fun other turned => ?_, others⟩⟩
        obtain ⟨cover, member, covers⟩ := isCovered_true (covered other turned)
        exact Or.inr ⟨cover, List.mem_append_left more member, covers⟩
      · obtain rfl := eq_of_build built
        have longer := made.add known listed turned (isCovered_false answer)
        obtain ⟨more, same, derived, others⟩ :=
          ih later longer (List.mem_append_left _ known) (by rw [List.map_append]; exact further)
        rw [List.append_assoc] at same derived others
        refine ⟨varied :: more, same, derived,
          List.forall_mem_cons.mpr ⟨fun other again => ?_, others⟩⟩
        obtain rfl := Except.ok.inj (turned.symm.trans again)
        exact Or.inl (by simp)

/-- The left sides before `position` need no more varying, and stay so as others are added. -/
theorem varyFrom_closes {start : Expr} {limit position : Nat} {results : List Expr}
    (made : IsDerived variations lhs lefts)
    (done : ∀ left ∈ lefts.take position, IsVaried variations lefts left)
    (finished : varyFrom (formOf symbol rhs start) variations limit position
      (lefts.map (formOf symbol rhs)) = .ok results) :
    ∃ closure, results = closure.map (formOf symbol rhs) ∧ IsClosure variations lhs closure := by
  induction limit using Nat.strongRecOn generalizing position lefts with
  | ind limit ih =>
      rcases varyFrom_cases finished with
        ⟨reached, rfl⟩ | ⟨rest, form, left, other, forms, rfl, here, parts, varied, further⟩
      · rw [List.length_map] at reached
        rw [List.take_of_length_le reached] at done
        exact ⟨lefts, rfl, made, done⟩
      · rw [List.getElem?_map, Option.map_eq_some_iff] at here
        obtain ⟨left, here, rfl⟩ := here
        obtain ⟨rfl, rfl⟩ : left = _ ∧ rhs = other := by simpa [formOf] using parts
        have inside := (List.getElem?_eq_some_iff.mp here).1
        obtain ⟨more, rfl, derived, this⟩ :=
          varyLhs_derives (List.Subset.refl _) made (List.mem_of_getElem? here) varied
        refine ih rest (Nat.lt_succ_self rest) derived (fun known member => ?_) further
        rw [List.take_append_of_le_length inside, List.take_add_one, here] at member
        rcases List.mem_append.mp member with before | last
        · exact (done known before).append more
        · obtain rfl := List.mem_singleton.mp last
          exact this

/-- Whenever the forms of a statement can be listed, they are a closure: the statement comes first,
the left side of each other form is made from an earlier one, none is an instance of an earlier one,
and no variation leads further. -/
theorem forms_isClosure (symbol : String) (lhs rhs : Expr) (variations : List Expr) (limit : Nat)
    {results : List Expr}
    (finished : (node .statement symbol [lhs, rhs]).forms limit variations = .ok results) :
    ∃ lefts, results = lefts.map (fun left => node .statement symbol [left, rhs]) ∧
      IsClosure variations lhs lefts :=
  varyFrom_closes (IsDerived.start variations lhs) (by simp) finished

/-- Regrouping makes `x + (y + z)` of `(x + y) + z`; what exchanging makes of the two, such as
`z + (x + y)`, is an instance of one of them. -/
theorem forms_isClosure_regrouped :
    let lhs := binary "+" (binary "+" (var "x") (var "y")) (var "z")
    let regrouped := binary "+" (var "x") (binary "+" (var "y") (var "z"))
    let variations :=
      [equation (binary "+" (binary "+" (var "a") (var "b")) (var "c"))
          (binary "+" (var "a") (binary "+" (var "b") (var "c"))),
        equation (binary "+" (var "a") (var "b")) (binary "+" (var "b") (var "a"))]
    (equation lhs (var "r")).forms 2 variations =
        .ok [equation lhs (var "r"), equation regrouped (var "r")] ∧
      IsClosure variations lhs [lhs, regrouped] := by
  intro lhs regrouped variations
  have finished : (equation lhs (var "r")).forms 2 variations =
      .ok [equation lhs (var "r"), equation regrouped (var "r")] := by rfl
  refine ⟨finished, ?_⟩
  obtain ⟨lefts, same, closure⟩ := forms_isClosure "=" lhs (var "r") variations 2 finished
  have injective (left other : Expr) (equal : equation left (var "r") = equation other (var "r")) :
      left = other := by
    simpa [equation] using equal
  have listed : [lhs, regrouped] = lefts := (List.map_inj_right injective).mp same
  rwa [listed]

end

end Stepwise.Expr
