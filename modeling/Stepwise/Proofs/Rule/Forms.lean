import Stepwise.Proofs.Attempt
import Stepwise.Proofs.Expr.Places
import Stepwise.Rule.Basic

/-!
The loop over the forms of a statement: what one variation and one round of it do. Where every
variation turns one of two left sides into the other or does not apply, whether the loop ends
depends on the instance tests between the two: it ends if one of them is recognized when it comes
back.
-/

namespace Stepwise.Expr

section

variable {statement lhs other rhs : Expr}

theorem varyLhs_of_skipped {variation : Expr} (skipped : (lhs.byEquation variation).IsSkipped)
    (forms rest : List Expr) :
    varyLhs statement lhs rhs forms (variation :: rest) = varyLhs statement lhs rhs forms rest := by
  rw [varyLhs, Attempt.orSkip_eq_none.mpr skipped]
  rfl

theorem varyLhs_of_ok {variation : Expr} (varied : lhs.byEquation variation = .ok other)
    {forms : List Expr} {covered : Bool} (answer : isCovered other forms = .ok covered)
    (rest : List Expr) :
    varyLhs statement lhs rhs forms (variation :: rest) =
      if covered then varyLhs statement lhs rhs forms rest
      else statement.withChildren [other, rhs] >>= fun form =>
        varyLhs statement lhs rhs (forms ++ [form]) rest := by
  rw [varyLhs, Attempt.orSkip_eq_ok_some.mpr varied]
  simp only [bind, Except.bind, answer]

theorem varyLhs_of_covered {forms : List Expr} (variations : List Expr)
    (known : ∀ variation ∈ variations, (lhs.byEquation variation).IsSkipped ∨
      ∃ varied, lhs.byEquation variation = .ok varied ∧ isCovered varied forms = .ok true) :
    varyLhs statement lhs rhs forms variations = .ok forms := by
  induction variations with
  | nil => rfl
  | cons variation rest ih =>
      have later := ih fun other member => known other (by simp [member])
      rcases known variation (by simp) with skipped | ⟨varied, turned, answer⟩
      · rw [varyLhs_of_skipped skipped, later]
      · rw [varyLhs_of_ok turned answer, if_pos rfl, later]

theorem varyFrom_done {variations forms : List Expr} (limit : Nat) {position : Nat}
    (reached : forms.length ≤ position) :
    varyFrom statement variations limit position forms = .ok forms := by
  rw [varyFrom, List.getElem?_eq_none reached]

theorem varyFrom_succ {variations forms more : List Expr} (limit : Nat) {position : Nat}
    {symbol : String} (here : forms[position]? = some (node .statement symbol [lhs, rhs]))
    (varied : varyLhs statement lhs rhs forms variations = .ok more) :
    varyFrom statement variations (limit + 1) position forms =
      varyFrom statement variations limit (position + 1) more := by
  rw [varyFrom, here]
  simp only [sides, children_node, bind, Except.bind, varied]

theorem varyLhs_cases {variation : Expr} {forms rest results : List Expr}
    (finished : varyLhs statement lhs rhs forms (variation :: rest) = .ok results) :
    (varyLhs statement lhs rhs forms rest = .ok results ∧
      ∀ varied, lhs.byEquation variation = .ok varied → isCovered varied forms = .ok true) ∨
    ∃ varied form, lhs.byEquation variation = .ok varied ∧ isCovered varied forms = .ok false ∧
      statement.withChildren [varied, rhs] = .ok form ∧
      varyLhs statement lhs rhs (forms ++ [form]) rest = .ok results := by
  rw [varyLhs] at finished
  obtain ⟨outcome, attempted, later⟩ := Attempt.bind_eq_ok.mp finished
  cases outcome with
  | none =>
      obtain ⟨cause, failed⟩ := Attempt.orSkip_eq_none.mp attempted
      exact Or.inl ⟨later, fun varied turned => by simp [failed] at turned⟩
  | some varied =>
      have turned := Attempt.orSkip_eq_ok_some.mp attempted
      obtain ⟨covered, answer, further⟩ := Attempt.bind_eq_ok.mp later
      cases covered with
      | true =>
          refine Or.inl ⟨further, fun other again => ?_⟩
          obtain rfl := Except.ok.inj (turned.symm.trans again)
          exact answer
      | false =>
          obtain ⟨form, built, added⟩ := Attempt.bind_eq_ok.mp further
          exact Or.inr ⟨varied, form, turned, answer, built, added⟩

theorem sides_eq_ok {form : Expr} (divided : form.sides = .ok (lhs, rhs)) :
    form.children = [lhs, rhs] := by
  unfold sides at divided
  split at divided
  · rename_i same
    obtain ⟨rfl, rfl⟩ := Prod.mk.inj (Except.ok.inj divided)
    exact same
  · simp at divided

theorem varyFrom_cases {variations forms results : List Expr} {limit position : Nat}
    (finished : varyFrom statement variations limit position forms = .ok results) :
    (forms.length ≤ position ∧ results = forms) ∨
    ∃ rest form lhs rhs more, limit = rest + 1 ∧ forms[position]? = some form ∧
      form.children = [lhs, rhs] ∧ varyLhs statement lhs rhs forms variations = .ok more ∧
      varyFrom statement variations rest (position + 1) more = .ok results := by
  rw [varyFrom] at finished
  split at finished
  · rename_i reached
    exact Or.inl ⟨List.getElem?_eq_none_iff.mp reached, (Except.ok.inj finished).symm⟩
  · rename_i form here
    cases limit with
    | zero => simp at finished
    | succ rest =>
        obtain ⟨⟨lhs, rhs⟩, divided, later⟩ := Attempt.bind_eq_ok.mp finished
        obtain ⟨more, varied, further⟩ := Attempt.bind_eq_ok.mp later
        exact Or.inr ⟨rest, form, lhs, rhs, more, rfl, here, sides_eq_ok divided, varied, further⟩

end

structure Mirrored (lhs other : Expr) (covered known : Bool) : Prop where
  same : lhs.isInstanceOf lhs = .ok known
  otherSame : other.isInstanceOf other = .ok known
  forth : lhs.isInstanceOf other = .ok covered
  back : other.isInstanceOf lhs = .ok covered

theorem Mirrored.symm {lhs other : Expr} {covered known : Bool}
    (mirrored : Mirrored lhs other covered known) : Mirrored other lhs covered known :=
  ⟨mirrored.otherSame, mirrored.same, mirrored.back, mirrored.forth⟩

/-- Every variation turns a left side into the other or is passed over, and some variation does
turn it. -/
structure Turns (variations : List Expr) (lhs other : Expr) : Prop where
  each : ∀ variation ∈ variations,
    (lhs.byEquation variation).IsSkipped ∨ lhs.byEquation variation = .ok other
  once : ∃ variation ∈ variations, lhs.byEquation variation = .ok other

theorem exists_turned_of_skipped {lhs other variation : Expr} {rest : List Expr}
    (skipped : (lhs.byEquation variation).IsSkipped)
    (once : ∃ later ∈ variation :: rest, lhs.byEquation later = .ok other) :
    ∃ later ∈ rest, lhs.byEquation later = .ok other := by
  obtain ⟨later, member, turned⟩ := once
  rcases List.mem_cons.mp member with rfl | inRest
  · obtain ⟨cause, failed⟩ := skipped
    simp [failed] at turned
  · exact ⟨later, inRest, turned⟩

def formOf (symbol : String) (rhs lhs : Expr) : Expr := node .statement symbol [lhs, rhs]

section

variable {symbol : String} {statement lhs other rhs : Expr} {variations : List Expr}

theorem isCovered_cons (varied known : Expr) {answer : Bool}
    (tested : varied.isInstanceOf known = .ok answer) (rest : List Expr) :
    isCovered varied (formOf symbol rhs known :: rest) =
      if answer then .ok true else isCovered varied rest := by
  change (varied.isInstanceOf known >>= fun answer =>
    if answer then pure true else isCovered varied rest) = _
  rw [tested]
  rfl

theorem isCovered_of_none (varied : Expr) (lefts : List Expr)
    (none : ∀ left ∈ lefts, varied.isInstanceOf left = .ok false) :
    isCovered varied (lefts.map (formOf symbol rhs)) = .ok false := by
  induction lefts with
  | nil => rfl
  | cons left rest ih =>
      rw [List.map_cons, isCovered_cons varied left (none left (by simp))]
      exact ih fun later member => none later (by simp [member])

theorem withChildren_formOf (start : Expr) (left : lhs.isMarker = false)
    (right : rhs.isMarker = false) :
    (formOf symbol rhs start).withChildren [lhs, rhs] = .ok (formOf symbol rhs lhs) :=
  build_two (Or.inr rfl) symbol left right

theorem forms_of_covered {known : Bool} (turns : Turns variations lhs other)
    (mirrored : Mirrored lhs other true known) (limit : Nat) :
    (formOf symbol rhs lhs).forms (limit + 1) variations = .ok [formOf symbol rhs lhs] := by
  have stays : varyLhs (formOf symbol rhs lhs) lhs rhs [formOf symbol rhs lhs] variations =
      .ok [formOf symbol rhs lhs] := by
    refine varyLhs_of_covered variations fun variation member => ?_
    refine (turns.each variation member).imp_right fun turned => ⟨other, turned, ?_⟩
    rw [isCovered_cons other lhs mirrored.back, if_pos rfl]
  rw [forms, varyFrom_succ limit rfl stays, varyFrom_done limit (by simp)]

theorem varyLhs_adds (symbol : String) (left : other.isMarker = false)
    (right : rhs.isMarker = false)
    (turns : Turns variations lhs other) (mirrored : Mirrored lhs other false true) :
    varyLhs (formOf symbol rhs lhs) lhs rhs [formOf symbol rhs lhs] variations =
      .ok [formOf symbol rhs lhs, formOf symbol rhs other] := by
  have new : isCovered other [formOf symbol rhs lhs] = .ok false := by
    rw [isCovered_cons other lhs mirrored.back]
    rfl
  have old : isCovered other [formOf symbol rhs lhs, formOf symbol rhs other] = .ok true := by
    rw [isCovered_cons other lhs mirrored.back, if_neg Bool.false_ne_true,
      isCovered_cons other other mirrored.otherSame, if_pos rfl]
  obtain ⟨each, once⟩ := turns
  induction variations with
  | nil => simp at once
  | cons variation rest ih =>
      have eachLater := fun later member => each later (List.mem_cons_of_mem variation member)
      rcases each variation (by simp) with skipped | turned
      · rw [varyLhs_of_skipped skipped]
        exact ih eachLater (exists_turned_of_skipped skipped once)
      · rw [varyLhs_of_ok turned new, if_neg Bool.false_ne_true,
          withChildren_formOf lhs left right]
        exact varyLhs_of_covered rest fun later member =>
          (eachLater later member).imp_right fun turnedLater => ⟨other, turnedLater, old⟩

theorem forms_of_known (left : other.isMarker = false) (right : rhs.isMarker = false)
    (forth : Turns variations lhs other) (back : Turns variations other lhs)
    (mirrored : Mirrored lhs other false true) (limit : Nat) :
    (formOf symbol rhs lhs).forms (limit + 2) variations =
      .ok [formOf symbol rhs lhs, formOf symbol rhs other] := by
  have adds := varyLhs_adds symbol left right forth mirrored
  have stays : varyLhs (formOf symbol rhs lhs) other rhs
      [formOf symbol rhs lhs, formOf symbol rhs other] variations =
        .ok [formOf symbol rhs lhs, formOf symbol rhs other] := by
    refine varyLhs_of_covered variations fun variation member => ?_
    refine (back.each variation member).imp_right fun turned => ⟨lhs, turned, ?_⟩
    rw [isCovered_cons lhs lhs mirrored.same, if_pos rfl]
  rw [forms, varyFrom_succ (limit + 1) rfl adds, varyFrom_succ limit rfl stays,
    varyFrom_done limit (by simp)]

/-! Left sides that are not. -/

theorem varyLhs_grows (symbol : String) (start : Expr) (left : other.isMarker = false)
    (right : rhs.isMarker = false)
    (each : ∀ variation ∈ variations,
      (lhs.byEquation variation).IsSkipped ∨ lhs.byEquation variation = .ok other)
    (mirrored : Mirrored lhs other false false)
    (lefts : List Expr) (pair : ∀ known ∈ lefts, known = lhs ∨ known = other) :
    ∃ more : List Expr,
      varyLhs (formOf symbol rhs start) lhs rhs (lefts.map (formOf symbol rhs)) variations =
        .ok (more.map (formOf symbol rhs)) ∧
      (∀ known ∈ more, known = lhs ∨ known = other) ∧ lefts.length ≤ more.length ∧
      ((∃ variation ∈ variations, lhs.byEquation variation = .ok other) →
        lefts.length < more.length) := by
  induction variations generalizing lefts with
  | nil => exact ⟨lefts, rfl, pair, Nat.le_refl _, by simp⟩
  | cons variation rest ih =>
      have eachLater := fun later member => each later (List.mem_cons_of_mem variation member)
      rcases each variation (by simp) with skipped | turned
      · obtain ⟨more, varied, morePair, notLess, grows⟩ := ih eachLater lefts pair
        refine ⟨more, (varyLhs_of_skipped skipped _ _).trans varied, morePair, notLess, ?_⟩
        exact fun once => grows (exists_turned_of_skipped skipped once)
      · have new : isCovered other (lefts.map (formOf symbol rhs)) = .ok false := by
          refine isCovered_of_none other lefts fun known member => ?_
          rcases pair known member with rfl | rfl
          · exact mirrored.back
          · exact mirrored.otherSame
        have added : ∀ known ∈ lefts ++ [other], known = lhs ∨ known = other := by
          simpa [or_imp, forall_and] using pair
        obtain ⟨more, varied, morePair, notLess, _⟩ := ih eachLater (lefts ++ [other]) added
        rw [List.length_append, List.length_singleton] at notLess
        refine ⟨more, ?_, morePair, by omega, fun _ => notLess⟩
        rw [varyLhs_of_ok turned new, if_neg Bool.false_ne_true,
          withChildren_formOf start left right]
        simpa [bind, Except.bind] using varied

theorem varyFrom_grows (symbol : String) (start : Expr) (left : other.isMarker = false)
    (right : rhs.isMarker = false) (turns : Turns variations lhs other)
    (mirrored : Mirrored lhs other false false) (limit : Nat) {position : Nat} {lefts : List Expr}
    (pair : ∀ known ∈ lefts, known = lhs ∨ known = other) (inside : position < lefts.length)
    (here : lefts[position] = lhs) :
    ∃ more : List Expr,
      varyFrom (formOf symbol rhs start) variations (limit + 1) position
          (lefts.map (formOf symbol rhs)) =
        varyFrom (formOf symbol rhs start) variations limit (position + 1)
          (more.map (formOf symbol rhs)) ∧
      (∀ known ∈ more, known = lhs ∨ known = other) ∧ position + 1 < more.length := by
  obtain ⟨more, varied, morePair, _, grows⟩ :=
    varyLhs_grows symbol start left right turns.each mirrored lefts pair
  have longer := grows turns.once
  have form : (lefts.map (formOf symbol rhs))[position]? = some (formOf symbol rhs lhs) := by
    rw [List.getElem?_map, List.getElem?_eq_getElem inside, here]
    rfl
  exact ⟨more, varyFrom_succ limit form varied, morePair, by omega⟩

theorem varyFrom_never_ends (symbol : String) (start : Expr) (left : lhs.isMarker = false)
    (otherLeft : other.isMarker = false) (right : rhs.isMarker = false)
    (forth : Turns variations lhs other) (back : Turns variations other lhs)
    (mirrored : Mirrored lhs other false false) (limit position : Nat) (lefts : List Expr)
    (pair : ∀ known ∈ lefts, known = lhs ∨ known = other) (inside : position < lefts.length) :
    varyFrom (formOf symbol rhs start) variations limit position (lefts.map (formOf symbol rhs)) =
      .error (.tooManyForms (position + limit)) := by
  induction limit generalizing position lefts with
  | zero =>
      rw [varyFrom, List.getElem?_map, List.getElem?_eq_getElem inside]
      rfl
  | succ limit ih =>
      have later : position + (limit + 1) = position + 1 + limit := by omega
      rw [later]
      rcases pair lefts[position] (List.getElem_mem inside) with atLhs | atOther
      · obtain ⟨more, grows, morePair, longer⟩ :=
          varyFrom_grows symbol start otherLeft right forth mirrored limit pair inside atLhs
        exact grows.trans (ih (position + 1) more morePair longer)
      · obtain ⟨more, grows, morePair, longer⟩ :=
          varyFrom_grows symbol start left right back mirrored.symm limit
            (fun known member => (pair known member).symm) inside atOther
        exact grows.trans
          (ih (position + 1) more (fun known member => (morePair known member).symm) longer)

theorem forms_never_end (left : lhs.isMarker = false) (otherLeft : other.isMarker = false)
    (right : rhs.isMarker = false) (forth : Turns variations lhs other)
    (back : Turns variations other lhs) (mirrored : Mirrored lhs other false false) (limit : Nat) :
    (formOf symbol rhs lhs).forms limit variations = .error (.tooManyForms limit) := by
  have endless := varyFrom_never_ends symbol lhs left otherLeft right forth back
    mirrored limit 0 [lhs] (by simp) (by simp)
  rwa [Nat.zero_add] at endless

end

end Stepwise.Expr
