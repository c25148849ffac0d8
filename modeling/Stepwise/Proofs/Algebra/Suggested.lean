import Stepwise.Proofs.Arithmetic.Calculation
import Stepwise.Proofs.Collections
import Stepwise.Proofs.Deduction.Recovery
import Stepwise.Proofs.Expr.Selection
import Stepwise.Worksheet.Derivation

/-!
What the suggestions for a selection are, and how a search for them can fail: an operand is selected
that is not there, or numbers overflow.
-/

namespace Stepwise

namespace Expr

inductive AlgebraStep (e : Expr) : Action → Expr → Prop
  | calculation {address : Address} {result : Expr} {name : String} :
      e.calculateAt address = .ok (result, name) → AlgebraStep e (.step name) result
  | bothSides {path : List Int} {statement side operand fn both result : Expr} {index : Int}
      {symbol name : String} : e.nodeAt path = .ok statement → statement.isEquation = true →
        side ∈ statement.children → side.inverseOperator? index = some symbol →
        operand ∈ side.children → operationBy symbol operand = .ok (fn, name) →
        statement.onBothSides fn = .ok both → e.replace both (.ofPath path) = .ok result →
          AlgebraStep e (.step name) result
  | reorder {path : List Int} {parent swapped result : Expr} {i j : Int} :
      e.nodeAt path = .ok parent → parent.reordered? i j = .ok (some swapped) →
        e.replace swapped (.ofPath path) = .ok result → AlgebraStep e (.step "Reorder") result
  | cancel {path : List Int} {result : Expr} {i j : Int} :
      e.cancelAt i j (.ofPath path) = .ok result →
        AlgebraStep e (.step "Simplify fraction") result

/-- The operation on both sides that two addresses select, an equation and an operand of a side. -/
inductive BothSides (e : Expr) (pivot target : Address) : Action → Expr → Prop
  | intro {statement side operand fn both result : Expr} {sideIndex operandIndex : Int}
      {rest : List Int} {symbol name : String} :
      target.path = pivot.path ++ sideIndex :: operandIndex :: rest →
        e.nodeAt pivot.path = .ok statement → statement.isEquation = true →
        Index.get? statement.children sideIndex = some side →
        side.inverseOperator? operandIndex = some symbol →
        Index.get? side.children operandIndex = some operand →
        operationBy symbol operand = .ok (fn, name) → statement.onBothSides fn = .ok both →
        e.replace both (.ofPath pivot.path) = .ok result →
          BothSides e pivot target (.step name) result

inductive Reorders (e : Expr) : Action → Expr → Prop
  | intro {path : List Int} {parent swapped result : Expr} {i j : Int} :
      e.nodeAt path = .ok parent → parent.reordered? i j = .ok (some swapped) →
        e.replace swapped (.ofPath path) = .ok result → Reorders e (.step "Reorder") result

theorem BothSides.algebraStep {e : Expr} {pivot target : Address} {action : Action} {result : Expr}
    (step : e.BothSides pivot target action result) : e.AlgebraStep action result := by
  cases step with
  | intro _ reached isEquation present inverse selected operated applied replaced =>
      exact .bothSides reached isEquation (Index.mem_of_get? present) inverse
        (Index.mem_of_get? selected) operated applied replaced

theorem Reorders.algebraStep {e : Expr} {action : Action} {result : Expr}
    (step : e.Reorders action result) : e.AlgebraStep action result := by
  cases step with
  | intro reached exchanged replaced => exact .reorder reached exchanged replaced

/-- The value of a part is out of range, or the quotient of two factors of a fraction is. -/
inductive Overflows (e : Expr) : OverflowFault → Prop
  | value {address : Address} {part : Expr} {cause : OverflowFault} :
      e.resolve address = .ok part → part.value = .error cause → Overflows e cause
  | quotient {path : List Int} {numerator denominator top bottom : Expr} {a b : Number}
      {cause : OverflowFault} : e.nodeAt path = .ok (binary "/" numerator denominator) →
        top ∈ (asTrain "*" numerator).children → bottom ∈ (asTrain "*" denominator).children →
        top.numeral? = some a → bottom.numeral? = some b →
        cancelled a b = .error (.overflow cause) → Overflows e cause

/-- The second address selects a side that the equation at the first one does not have, or an
operand that such a side does not have. -/
def Lacks (e : Expr) (pivot target : Address) : Prop :=
  ∃ statement side operand rest, e.nodeAt pivot.path = .ok statement ∧
    statement.isEquation = true ∧ target.path = pivot.path ++ side :: operand :: rest ∧
    (Index.get? statement.children side = none ∨
      ∃ part symbol, Index.get? statement.children side = some part ∧
        part.inverseOperator? operand = some symbol ∧ Index.get? part.children operand = none)

/-- How a search for suggestions breaks off. -/
inductive SearchBreaks (e : Expr) (selection : List Address) : Fault → Prop
  | missing {before : List Address} {pivot target : Address} :
      selection = before ++ [pivot, target] → e.Lacks pivot target →
        SearchBreaks e selection .outOfRange
  | overflow {cause : OverflowFault} :
      e.Overflows cause → SearchBreaks e selection (.overflow cause)

inductive SearchFails (e : Expr) (selection : List Address) (fault : Fault) : Prop
  | invalid : fault.isInvalidArgument = true → SearchFails e selection fault
  | breaks : e.SearchBreaks selection fault → SearchFails e selection fault

end Expr

namespace Settings

/-- The steps that are suggested for a selection with the given last address. -/
inductive Suggested (settings : Settings) (e : Expr) (target : Address) : Action → Expr → Prop
  | substitution {label : String} {labelled result : Expr} : (label, labelled) ∈ settings.labels →
      e.byEquationAt labelled target = .ok result →
        Suggested settings e target (.step ("Substitute from " ++ label)) result
  | rule {id : String} {rule : Rule} {result : Expr} : settings.catalog.rule? id = some rule →
      rule.applyAt e target = .ok result → Suggested settings e target (.rule rule.label) result
  | algebra {action : Action} {result : Expr} : e.AlgebraStep action result →
      Suggested settings e target action result

end Settings

namespace Expr

abbrev Finds (P : Action → Expr → Prop) (Q : Fault → Prop) (attempt : Attempt (List Suggestion)) :
    Prop :=
  attempt.Ends (fun found => ∀ pair ∈ found, P pair.1 pair.2) Q

section

variable {P : Action → Expr → Prop} {Q : Fault → Prop}

theorem finds_nil : Finds P Q (.ok []) := by
  simp [Attempt.Ends]

theorem finds_one {action : Action} {result : Expr} (holds : P action result) :
    Finds P Q (.ok [(action, result)]) := by
  simpa [Attempt.Ends] using holds

end

variable {e : Expr}

theorem guarded_ends {α : Type} (attempt : Except OverflowFault α) :
    (guarded attempt).Ends (fun value => attempt = .ok value)
      fun fault => ∃ cause, fault = .overflow cause ∧ attempt = .error cause := by
  cases attempt with
  | ok value => exact rfl
  | error cause => exact ⟨cause, rfl, rfl⟩

theorem calculationAt_finds {target : Expr} {address : Address}
    (resolved : e.resolve address = .ok target) (calculable : target.isCalculable = .ok true)
    (Q : Fault → Prop) :
    Finds e.AlgebraStep (fun fault => e.WellShaped → Q fault) (e.calculationAt address) := by
  cases found : e.calculationAt address with
  | ok suggestions =>
      obtain ⟨⟨result, name⟩, calculated, same⟩ := Attempt.bind_eq_ok.mp found
      obtain rfl := Except.ok.inj same
      exact finds_one (.calculation calculated)
  | error fault =>
      intro shaped
      obtain ⟨result, name, calculated⟩ := exists_calculateAt shaped resolved calculable
      rw [calculationAt, calculated] at found
      exact nomatch found

theorem calculable_finds {target : Expr} {address : Address}
    (resolved : e.resolve address = .ok target) {other : Attempt (List Suggestion)}
    {selection : List Address}
    (others : Finds e.AlgebraStep (fun fault => e.WellShaped → e.SearchFails selection fault)
      other) :
    Finds e.AlgebraStep (fun fault => e.WellShaped → e.SearchFails selection fault)
      (guarded target.isCalculable >>= fun calculable =>
        if calculable then e.calculationAt address else other) := by
  refine Attempt.Ends.bind ((guarded_ends target.isCalculable).imp_fault ?_)
    fun calculable _ known => ?_
  · rintro _ ⟨cause, rfl, overflows⟩ _
    exact .breaks (.overflow (.value resolved (value_of_isCalculable_error overflows)))
  · split
    · rename_i isTrue
      exact calculationAt_finds resolved (isTrue ▸ known) _
    · exact others

theorem calculationActions_finds (alone : Bool) (address : Address) (selection : List Address) :
    Finds e.AlgebraStep (fun fault => e.WellShaped → e.SearchFails selection fault)
      (e.calculationActions alone address) := by
  refine Attempt.Ends.bind ((resolve_recovers e address).orSkip.imp_fault
    fun _ invalid _ => .invalid invalid) fun outcome _ found => ?_
  cases outcome with
  | none => exact finds_nil
  | some target =>
      refine calculable_finds (found target rfl) ?_
      split
      · split
        · exact finds_nil
        · rename_i parent above
          obtain ⟨path, pair⟩ := address
          unfold Address.parent? at above
          split at above
          · simp at above
          · rename_i below
            obtain rfl := Option.some.inj above
            -- The node around the target is on the way to it.
            obtain ⟨inner, reached, _⟩ := Attempt.bind_eq_ok.mp (found target rfl)
            have nonempty : path ≠ [] := by simpa using below
            rw [← List.dropLast_append_getLast nonempty] at reached
            obtain ⟨around, passed, _⟩ := nodeAt_append.mp reached
            have resolved : e.resolve ⟨path.dropLast, none⟩ = .ok around :=
              Attempt.bind_eq_ok.mpr ⟨around, passed, rfl⟩
            change Finds _ _ (e.nodeAt path.dropLast >>= _)
            rw [passed]
            exact calculable_finds resolved finds_nil
      · exact finds_nil

/-! Two addresses. -/

abbrev StepOrSearchFails (e : Expr) (selection : List Address) (fault : Fault) : Prop :=
  fault.IsStep ∨ e.SearchFails selection fault

section

variable {selection : List Address}

theorem recoverable_stepOrSearchFails {α : Type} {attempt : Attempt α}
    (recovers : attempt.Recovers) :
    attempt.Ends (fun value => attempt = .ok value) (e.StepOrSearchFails selection) :=
  recovers.imp (fun _ finished _ => finished) fun _ known => known.imp_right .invalid

theorem skipped_finds {P : Action → Expr → Prop} {attempt : Attempt (List Suggestion)}
    (finds : Finds P (e.StepOrSearchFails selection) attempt) :
    attempt.orSkip.Ends (fun outcome => ∀ pair ∈ outcome.getD [], P pair.1 pair.2)
      (e.SearchFails selection) := by
  refine (Attempt.Ends.orSkip finds).imp (fun outcome _ found => ?_)
    fun _ known => known.1.resolve_left known.2
  cases outcome with
  | none => simp
  | some listed => exact finds.value (found listed rfl)

theorem bothSideActions_finds {before : List Address} {pivot target : Address} :
    Finds (e.BothSides pivot target) (e.StepOrSearchFails (before ++ [pivot, target]))
      (e.bothSideActions pivot target) := by
  unfold bothSideActions
  split
  · rename_i sideIndex operandIndex rest starts below
    have parts : target.path = pivot.path ++ sideIndex :: operandIndex :: rest := by
      obtain ⟨later, same⟩ := List.isPrefixOf_iff_prefix.mp starts
      rw [← same] at below ⊢
      rw [List.drop_left] at below
      rw [below]
    refine Attempt.Ends.bind (((nodeAt_recovers e pivot.path).orSkip).imp_fault
      fun _ invalid => Or.inr (.invalid invalid)) ?_
    intro outcome _ found
    cases outcome with
    | none => exact finds_nil
    | some statement =>
        have reached := found statement rfl
        dsimp only
        split
        · rename_i isEquation
          split
          · rename_i absent
            exact Or.inr (.breaks (.missing rfl ⟨statement, sideIndex, operandIndex, rest, reached,
              isEquation, parts, Or.inl absent⟩))
          · rename_i side present
            split
            · exact finds_nil
            · rename_i symbol inverse
              split
              · rename_i absent
                refine Or.inr (.breaks (.missing rfl ⟨statement, sideIndex, operandIndex, rest,
                  reached, isEquation, parts, Or.inr ?_⟩))
                exact ⟨side, symbol, present, inverse, absent⟩
              · rename_i operand selected
                have operates : (operationBy symbol operand).Recovers :=
                  (build_recovers _ _ _).bind fun _ _ => Attempt.recovers_ok _
                refine Attempt.Ends.bind (recoverable_stepOrSearchFails operates) ?_
                rintro ⟨fn, name⟩ operated _
                have applies : (statement.onBothSides fn >>= fun both =>
                    e.replace both (.ofPath pivot.path)).Recovers :=
                  (onBothSides_recovers _ _).bind fun _ _ => replace_recovers _ _ _
                refine Attempt.Ends.bind (applies.orSkip.imp_fault
                  fun _ invalid => Or.inr (.invalid invalid)) ?_
                intro outcome _ found
                cases outcome with
                | none => exact finds_nil
                | some result =>
                    obtain ⟨both, applied, replaced⟩ := Attempt.bind_eq_ok.mp (found result rfl)
                    exact finds_one (.intro parts reached isEquation present inverse selected
                      operated applied replaced)
        · exact finds_nil
  · exact finds_nil

theorem reordered?_recovers (parent : Expr) (i j : Int) : (parent.reordered? i j).Recovers := by
  have mapped {attempt : Attempt Expr} (recovers : attempt.Recovers) :
      Attempt.Recovers (attempt.map some) := by
    cases attempt with
    | ok value => trivial
    | error fault => exact recovers
  unfold reordered?
  split
  · split
    · exact mapped (swapTerms_recovers _ _ _)
    · split
      · exact mapped (build_recovers _ _ _)
      · exact Attempt.recovers_ok _
  · exact Attempt.recovers_ok _

theorem reorderActions_finds (first second : Address) :
    Finds e.Reorders (e.StepOrSearchFails selection) (e.reorderActions first second) := by
  unfold reorderActions
  dsimp only
  split
  · refine Attempt.Ends.bind (recoverable_stepOrSearchFails (nodeAt_recovers e _)) ?_
    intro parent reached _
    refine Attempt.Ends.bind (recoverable_stepOrSearchFails (reordered?_recovers parent _ _)) ?_
    intro outcome exchanged _
    cases outcome with
    | none => exact finds_nil
    | some swapped =>
        refine Attempt.Ends.bind (recoverable_stepOrSearchFails (replace_recovers e _ _)) ?_
        intro result replaced _
        exact finds_one (.intro reached exchanged replaced)
  · exact finds_nil

theorem cancelled_ends (a b : Number) :
    (cancelled a b).Ends (fun _ => True) fun fault =>
      fault.IsStep ∨ ∃ cause, fault = .overflow cause ∧
        cancelled a b = .error (.overflow cause) := by
  cases same : cancelled a b with
  | ok value => trivial
  | error fault =>
      unfold cancelled at same
      split at same
      · dsimp only at same
        split at same
        · exact Or.inl ⟨_, (Except.error.inj same).symm⟩
        · simp at same
      · split at same
        · exact Or.inl ⟨_, (Except.error.inj same).symm⟩
        · split at same
          · simp at same
          · obtain rfl := Except.error.inj same
            exact Or.inr ⟨_, rfl, rfl⟩

theorem cancel_finds {path : List Int} {fraction : Expr} (reached : e.nodeAt path = .ok fraction)
    (i j : Int) :
    (fraction.cancel i j).Ends (fun result => fraction.cancel i j = .ok result)
      (e.StepOrSearchFails selection) := by
  refine Attempt.Ends.imp (P := fun _ => True) ?_ (fun _ finished _ => finished)
    fun _ known => known
  unfold cancel
  split
  · rename_i numerator denominator
    dsimp only
    split
    · rename_i top bottom above below
      split
      · rename_i a b readTop readBottom
        refine Attempt.Ends.bind ((cancelled_ends a b).imp (fun _ _ _ => trivial) ?_)
          fun _ _ _ => trivial
        rintro fault (isStep | ⟨cause, rfl, overflows⟩)
        · exact Or.inl isStep
        · exact Or.inr (.breaks (.overflow (.quotient reached (Index.mem_of_forward? above)
            (Index.mem_of_forward? below) readTop readBottom overflows)))
      · exact Or.inl ⟨_, rfl⟩
    · exact Or.inl ⟨_, rfl⟩
  · exact Or.inl ⟨_, rfl⟩

theorem cancelActions_finds (path above below : List Int) :
    Finds e.AlgebraStep (e.StepOrSearchFails selection) (e.cancelActions path above below) := by
  refine Attempt.Ends.bind (recoverable_stepOrSearchFails (nodeAt_recovers e path)) ?_
  intro fraction reached _
  split
  · split
    · rename_i i j _ _
      have cancels : (e.cancelAt i j (.ofPath path)).Ends
          (fun result => e.cancelAt i j (.ofPath path) = .ok result)
          (e.StepOrSearchFails selection) := by
        refine Attempt.Ends.imp (P := fun _ => True) ?_ (fun _ finished _ => finished)
          fun _ known => known
        refine Attempt.Ends.bind (recoverable_stepOrSearchFails (nodeAt_recovers e path)) ?_
        intro fraction reached _
        refine (cancel_finds reached i j).bind fun result _ _ => ?_
        exact (recoverable_stepOrSearchFails (replace_recovers e result _)).imp
          (fun _ _ _ => trivial) fun _ known => known
      refine Attempt.Ends.bind ((Attempt.Ends.orSkip cancels).imp_fault
        fun _ known => Or.inr (known.1.resolve_left known.2)) ?_
      intro outcome _ found
      cases outcome with
      | none => exact finds_nil
      | some result => exact finds_one (.cancel (found result rfl))
    · exact finds_nil
  · exact finds_nil

theorem fractionActions_finds (first second : Address) :
    Finds e.AlgebraStep (e.StepOrSearchFails selection) (e.fractionActions first second) := by
  refine Attempt.Ends.bind (recoverable_stepOrSearchFails (nodeAt_recovers e first.path)) ?_
  intro a _ _
  dsimp only
  split
  · refine Attempt.Ends.bind (recoverable_stepOrSearchFails (nodeAt_recovers e second.path)) ?_
    intro b _ _
    split
    · split
      · split
        · exact cancelActions_finds _ _ _
        · exact cancelActions_finds _ _ _
      · exact finds_nil
    · exact finds_nil
  · exact finds_nil

theorem pairActions_finds {before : List Address} (pivot target : Address) :
    Finds e.AlgebraStep (e.SearchFails (before ++ [pivot, target]))
      (e.pairActions pivot target) := by
  unfold pairActions
  split
  · refine (skipped_finds bothSideActions_finds).bind fun both _ bothFound => ?_
    refine (skipped_finds (reorderActions_finds _ _)).bind fun reorder _ reorderFound => ?_
    refine (skipped_finds (fractionActions_finds _ _)).bind fun cancel _ cancelFound => ?_
    intro pair member
    rcases List.mem_append.mp member with earlier | inCancel
    · rcases List.mem_append.mp earlier with inBoth | inReorder
      · exact (bothFound pair inBoth).algebraStep
      · exact (reorderFound pair inReorder).algebraStep
    · exact cancelFound pair inCancel
  · exact finds_nil

end

end Expr

namespace Settings

open Stepwise.Expr

variable {settings : Settings} {e : Expr} {selection : List Address}

theorem ruleActions_finds (address : Address) (ids : List String) :
    Finds (settings.Suggested e address) (e.SearchFails selection)
      (e.ruleActions settings.catalog address ids) := by
  induction ids with
  | nil => exact finds_nil
  | cons id rest ih =>
      rw [ruleActions]
      have later {here : List Suggestion}
          (holds : ∀ pair ∈ here, settings.Suggested e address pair.1 pair.2) :
          Finds (settings.Suggested e address) (e.SearchFails selection)
            (e.ruleActions settings.catalog address rest >>= fun others =>
              pure (here ++ others)) := by
        refine ih.bind fun others _ below => ?_
        intro pair member
        exact (List.mem_append.mp member).elim (holds pair) (below pair)
      split
      · exact later (by simp)
      · rename_i rule known
        refine Attempt.Ends.bind ((rule.applyAt_recovers e address).orSkip.imp_fault
          fun _ invalid => .invalid invalid) ?_
        intro outcome _ found
        cases outcome with
        | none => exact later (by simp)
        | some result =>
            refine later fun pair member => ?_
            obtain rfl := List.mem_singleton.mp member
            exact .rule known (found result rfl)

theorem substitutions_finds (address : Address) {labels : List (String × Expr)}
    (known : ∀ pair ∈ labels, pair ∈ settings.labels) :
    Finds (settings.Suggested e address) (e.SearchFails selection)
      (substitutions e address labels) := by
  induction labels with
  | nil => exact finds_nil
  | cons pair rest ih =>
      obtain ⟨label, labelled⟩ := pair
      rw [substitutions]
      refine Attempt.Ends.bind ((byEquationAt_recovers e labelled address).orSkip.imp_fault
        fun _ invalid => .invalid invalid) ?_
      intro outcome _ found
      refine (ih fun pair member => known pair (by simp [member])).bind fun others _ below => ?_
      cases outcome with
      | none => exact below
      | some result =>
          intro pair member
          rcases List.mem_cons.mp member with rfl | inOthers
          · exact .substitution (known _ (by simp)) (found result rfl)
          · exact below pair inOthers

/-! All suggestions. -/

theorem suggestRecent_finds (target : Address) (before : List Address) :
    Finds (settings.Suggested e target)
      (fun fault => e.WellShaped → e.SearchFails (target :: before).reverse fault)
      (e.suggestRecent settings.catalog (target :: before)) := by
  have algebra {Q : Fault → Prop} {attempt : Attempt (List Suggestion)}
      (finds : Finds e.AlgebraStep Q attempt) : Finds (settings.Suggested e target) Q attempt :=
    finds.imp (fun _ _ holds pair member => .algebra (holds pair member)) fun _ known => known
  have anyway {P : Action → Expr → Prop} {attempt : Attempt (List Suggestion)}
      (finds : Finds P (e.SearchFails (target :: before).reverse) attempt) :
      Finds P (fun fault => e.WellShaped → e.SearchFails (target :: before).reverse fault)
        attempt :=
    finds.imp_fault fun _ known _ => known
  have pairs (calculations rules : List Suggestion)
      (known : ∀ pair ∈ calculations ++ rules, settings.Suggested e target pair.1 pair.2)
      {others : Attempt (List Suggestion)}
      (finds : Finds e.AlgebraStep (e.SearchFails (target :: before).reverse) others) :
      Finds (settings.Suggested e target)
        (fun fault => e.WellShaped → e.SearchFails (target :: before).reverse fault)
        (others >>= fun pairs => pure (calculations ++ rules ++ pairs)) := by
    refine (anyway (algebra finds)).bind fun found _ paired => ?_
    intro pair member
    exact (List.mem_append.mp member).elim (known pair) (paired pair)
  rw [suggestRecent]
  refine (algebra (calculationActions_finds _ _ _)).bind fun calculations _ calculated => ?_
  refine (anyway (ruleActions_finds _ _)).bind fun rules _ ruled => ?_
  have known (pair : Suggestion) (member : pair ∈ calculations ++ rules) :
      settings.Suggested e target pair.1 pair.2 :=
    (List.mem_append.mp member).elim (calculated pair) (ruled pair)
  cases before with
  | nil => exact pairs _ _ known (finds_nil : Finds e.AlgebraStep _ (.ok []))
  | cons pivot rest =>
      refine pairs _ _ known ?_
      rw [show (target :: pivot :: rest).reverse = rest.reverse ++ [pivot, target] by simp]
      exact pairActions_finds _ _

theorem suggestions_finds (provided : settings.provider = Expr.suggest) {history : History}
    (newest : history.last? = some e) :
    Finds (fun action result => ∃ target, selection.getLast? = some target ∧
        settings.Suggested e target action result)
      (fun fault => e.WellShaped → e.SearchFails selection fault)
      (settings.suggestions history selection) := by
  unfold suggestions
  rw [newest, provided]
  cases last : selection.getLast? with
  | none => exact finds_nil
  | some target =>
      obtain ⟨before, rfl⟩ := List.getLast?_eq_some_iff.mp last
      have finds : Finds (settings.Suggested e target)
          (fun fault => e.WellShaped → e.SearchFails (target :: before.reverse).reverse fault)
          (e.suggestRecent settings.catalog (target :: before.reverse)) :=
        suggestRecent_finds target before.reverse
      rw [List.reverse_cons, List.reverse_reverse] at finds
      have recent : e.suggest settings.catalog (before ++ [target]) =
          e.suggestRecent settings.catalog (target :: before.reverse) := by
        simp [suggest]
      dsimp only
      rw [recent]
      refine Attempt.Ends.bind ((substitutions_finds target fun _ member => member).imp_fault
        fun _ known _ => known) fun known _ substituted => ?_
      refine finds.bind fun others _ found => ?_
      intro pair member
      exact ⟨target, rfl, (List.mem_append.mp member).elim (substituted pair) (found pair)⟩

end Settings

end Stepwise
