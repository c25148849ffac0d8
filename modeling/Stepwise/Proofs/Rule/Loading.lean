import Stepwise.Proofs.Attempt
import Stepwise.Proofs.Deduction.Settled
import Stepwise.Proofs.Deduction.Shaped
import Stepwise.Proofs.Rule.Forms
import Stepwise.Rule.Algebra

/-!
Entering rules: the forms of well-shaped statements under well-shaped variations are well shaped.
-/

namespace Stepwise

namespace Logged

theorem bind_result {α β : Type} (first : Logged α) (next : α → Logged β) :
    (first >>= next).result = first.result >>= fun value => (next value).result := by
  change (first.andThen next).result = _
  unfold andThen
  cases first.result <;> rfl

end Logged

namespace Expr

theorem equationSides?_eq_some {e lhs rhs : Expr} (sides : e.equationSides? = some (lhs, rhs)) :
    e = equation lhs rhs := by
  unfold equationSides? at sides
  split at sides
  · obtain ⟨rfl, rfl⟩ := Prod.mk.inj (Option.some.inj sides)
    rfl
  · simp at sides

theorem implicationSides?_eq_some {e premise conclusion : Expr}
    (sides : e.implicationSides? = some (premise, conclusion)) :
    e = implication premise conclusion := by
  unfold implicationSides? at sides
  split at sides
  · obtain ⟨rfl, rfl⟩ := Prod.mk.inj (Option.some.inj sides)
    rfl
  · simp at sides

theorem byEquation_eq_ok {e eq result : Expr} (stepped : e.byEquation eq = .ok result) :
    ∃ lhs rhs, eq = equation lhs rhs ∧ settle e maxGroundings lhs rhs = .ok result := by
  unfold Expr.byEquation at stepped
  split at stepped
  · exact absurd stepped (Attempt.stepFault_ne_ok _ _)
  · rename_i lhs rhs sides
    exact ⟨lhs, rhs, equationSides?_eq_some sides, stepped⟩

theorem WellShaped.byEquation {e eq result : Expr} (shaped : e.WellShaped)
    (eqShaped : eq.WellShaped) (stepped : e.byEquation eq = .ok result) : result.WellShaped := by
  obtain ⟨lhs, rhs, rfl, settled⟩ := byEquation_eq_ok stepped
  exact wellShaped_of_settle shaped eqShaped.sides.1.1 eqShaped.sides.2.1 settled

theorem WellShaped.byEquationAt {e eq result : Expr} {address : Address} (shaped : e.WellShaped)
    (eqShaped : eq.WellShaped) (stepped : e.byEquationAt eq address = .ok result) :
    result.WellShaped := by
  obtain ⟨path, pair⟩ := address
  obtain ⟨target, resolved, rest⟩ := Attempt.bind_eq_ok.mp stepped
  obtain ⟨image, turned, replaced⟩ := Attempt.bind_eq_ok.mp rest
  exact shaped.replace ((shaped.resolve resolved).byEquation eqShaped turned) replaced

section

variable {statement lhs rhs : Expr} {variations forms more : List Expr}

theorem wellShaped_of_varyLhs (each : ∀ variation ∈ variations, variation.WellShaped)
    (left : lhs.WellShaped) (right : rhs.WellShaped) (known : ∀ form ∈ forms, form.WellShaped)
    (varied : varyLhs statement lhs rhs forms variations = .ok more) :
    ∀ form ∈ more, form.WellShaped := by
  induction variations generalizing forms with
  | nil => exact Except.ok.inj varied ▸ known
  | cons variation rest ih =>
      have later := fun other member => each other (List.mem_cons_of_mem _ member)
      rcases varyLhs_cases varied with ⟨further, _⟩ | ⟨other, form, turned, _, built, further⟩
      · exact ih later known further
      · have otherShaped := left.byEquation (each variation (by simp)) turned
        have formShaped := wellShaped_of_build built (by simp [otherShaped, right])
        refine ih later (fun form member => ?_) further
        rcases List.mem_append.mp member with old | new
        · exact known form old
        · exact List.mem_singleton.mp new ▸ formShaped

theorem wellShaped_of_varyFrom (each : ∀ variation ∈ variations, variation.WellShaped)
    {limit position : Nat} (known : ∀ form ∈ forms, form.WellShaped)
    (varied : varyFrom statement variations limit position forms = .ok more) :
    ∀ form ∈ more, form.WellShaped := by
  induction limit using Nat.strongRecOn generalizing position forms with
  | ind limit ih =>
      rcases varyFrom_cases varied with
        ⟨_, rfl⟩ | ⟨rest, form, lhs, rhs, longer, rfl, here, parts, added, further⟩
      · exact known
      · obtain ⟨kind, symbol, children⟩ := form
        obtain rfl : children = [lhs, rhs] := parts
        have formShaped := known _ (List.mem_of_getElem? here)
        have longerShaped := wellShaped_of_varyLhs each (formShaped.child (by simp))
          (formShaped.child (by simp)) known added
        exact ih rest (Nat.lt_succ_self rest) longerShaped further

end

end Expr

namespace RuleSet

open Stepwise.Expr

def IsShaped (rs : RuleSet) : Prop := ∀ rule ∈ rs.rules, rule.statement.WellShaped

theorem statement_of_ofStatement {id : String} {label : Caption} {statement : Expr} {rule : Rule}
    (made : Rule.ofStatement id label statement = .ok rule) : rule.statement = statement := by
  unfold Rule.ofStatement at made
  split at made
  · rename_i sides
    obtain rfl := Except.ok.inj made
    exact (equationSides?_eq_some sides).symm
  · rename_i sides _
    obtain rfl := Except.ok.inj made
    exact (implicationSides?_eq_some sides).symm
  · exact absurd made (Attempt.stepFault_ne_ok _ _)

variable {rs extended : RuleSet} {variations : List Expr}

theorem IsShaped.add (shaped : rs.IsShaped) {rule : Rule} (ruleShaped : rule.statement.WellShaped)
    {auto : Bool} (added : rs.add rule auto = .ok extended) : extended.IsShaped := by
  unfold RuleSet.add at added
  split at added
  · simp at added
  · obtain rfl := Except.ok.inj added
    intro other member
    rcases List.mem_append.mp member with old | new
    · exact shaped other old
    · exact List.mem_singleton.mp new ▸ ruleShaped

theorem IsShaped.enterForms (shaped : rs.IsShaped) {id : String} {label : Caption} {auto : Bool}
    {count index : Nat} {forms : List Expr} (each : ∀ form ∈ forms, form.WellShaped)
    (entered : (rs.enterForms id label auto count index forms).result = .ok extended) :
    extended.IsShaped := by
  induction forms generalizing rs index with
  | nil => exact Except.ok.inj entered ▸ shaped
  | cons form rest ih =>
      rw [RuleSet.enterForms, Logged.bind_result] at entered
      obtain ⟨rule, made, entered⟩ := Attempt.bind_eq_ok.mp entered
      rw [Logged.bind_result] at entered
      obtain ⟨longer, added, entered⟩ := Attempt.bind_eq_ok.mp entered
      rw [Logged.bind_result] at entered
      obtain ⟨_, _, entered⟩ := Attempt.bind_eq_ok.mp entered
      have ruleShaped : rule.statement.WellShaped := by
        rw [statement_of_ofStatement made]
        exact each form (by simp)
      exact ih (shaped.add ruleShaped added) (fun other member => each other (by simp [member]))
        entered

theorem IsShaped.enter (shaped : rs.IsShaped)
    (each : ∀ variation ∈ variations, variation.WellShaped) {id : String} {label : Caption}
    {auto : Bool} {statement : Expr} (statementShaped : statement.WellShaped)
    (entered : (rs.enter variations id label auto statement).result = .ok extended) :
    extended.IsShaped := by
  rw [RuleSet.enter, Logged.bind_result] at entered
  obtain ⟨forms, varied, entered⟩ := Attempt.bind_eq_ok.mp entered
  exact shaped.enterForms (wellShaped_of_varyFrom each (by simpa using statementShaped) varied)
    entered

theorem IsShaped.enterAll (shaped : rs.IsShaped)
    (each : ∀ variation ∈ variations, variation.WellShaped) {entries : List Entry}
    (statements : ∀ entry ∈ entries, entry.statement.WellShaped)
    (entered : (RuleSet.enterAll variations rs entries).result = .ok extended) :
    extended.IsShaped := by
  induction entries generalizing rs with
  | nil => exact Except.ok.inj entered ▸ shaped
  | cons entry rest ih =>
      rw [RuleSet.enterAll, Logged.bind_result] at entered
      obtain ⟨longer, added, entered⟩ := Attempt.bind_eq_ok.mp entered
      exact ih (shaped.enter each (statements entry (by simp)) added)
        (fun other member => statements other (by simp [member])) entered

theorem isShaped_empty (name : Caption) (ctx : Context) (normalization : Option Caption) :
    (empty name ctx normalization).IsShaped := by
  simp [IsShaped, empty]

theorem isShaped_algebra (loaded : algebra.result = .ok rs) : rs.IsShaped := by
  have variations : ∀ variation ∈ [exchange "+", exchange "*"], variation.WellShaped := by decide
  have statements : ∀ entry ∈ algebraEntries, entry.statement.WellShaped := by decide
  exact (isShaped_empty _ _ _).enterAll variations statements loaded

end RuleSet

end Stepwise
