import Stepwise.Algebra.Calculate
import Stepwise.Proofs.Deduction.Failure

/-!
Calculations. An expression with a value has no variables, and the equation with the value turns it
into the numeral at once, so that what can be calculated is calculated.
-/

namespace Stepwise.Expr

theorem value_node {kind : Kind} (notConst : kind ≠ .const) (symbol : String)
    (children : List Expr) {n : Number}
    (valued : (node kind symbol children).value = .ok (some n)) :
    ∃ operation operands, Operation.ofNode? kind symbol = some operation ∧
      valueEach children = .ok (some operands) := by
  rw [value] at valued
  · split at valued
    · simp at valued
    · rename_i operation known
      split at valued
      · simp at valued
      · simp at valued
      · rename_i operands each
        exact ⟨operation, operands, known, each⟩
  · exact notConst

theorem value_of_mem {children : List Expr} {operands : List Number}
    (valued : valueEach children = .ok (some operands)) {child : Expr} (member : child ∈ children) :
    ∃ n, child.value = .ok (some n) := by
  induction children generalizing operands with
  | nil => simp at member
  | cons first rest ih =>
      rw [valueEach] at valued
      split at valued
      · simp at valued
      · simp at valued
      · rename_i n here
        split at valued
        · simp at valued
        · simp at valued
        · rename_i others later
          rcases List.mem_cons.mp member with rfl | inRest
          · exact ⟨n, here⟩
          · exact ih later inRest

theorem closed_of_value {e : Expr} (shaped : e.WellShaped) {n : Number}
    (valued : e.value = .ok (some n)) : e.containsVariable = false := by
  induction e using Expr.induction generalizing n with
  | node kind symbol children each =>
      by_cases isConst : kind = .const
      · subst isConst
        rw [shaped.children_eq_nil (Or.inl rfl)]
        rfl
      · obtain ⟨operation, operands, known, below⟩ := value_node isConst symbol children valued
        have notVar : kind ≠ .var := by
          rintro rfl
          simp [Operation.ofNode?] at known
        rw [containsVariable, anyContainsVariable_eq_false]
        · intro child member
          obtain ⟨m, inner⟩ := value_of_mem below member
          exact each child member (shaped.child member) inner
        · exact notVar

theorem isOperand_ofNumber (n : Number) : (ofNumber n).IsOperand := by
  have leaf (symbol : String) : (const symbol).IsOperand := ⟨(plain_const _).1, rfl⟩
  unfold ofNumber
  split
  · refine ⟨(wellShaped_node _ _ _).mpr ⟨rfl, ?_⟩, rfl⟩
    intro child member
    exact List.mem_singleton.mp member ▸ (leaf _).1
  · exact leaf _

theorem value_of_isCalculable {e : Expr} (calculable : e.isCalculable = .ok true) :
    ∃ n, e.value = .ok (some n) := by
  unfold isCalculable at calculable
  split at calculable
  · simp at calculable
  · cases valued : e.value with
    | error cause => simp [valued, Except.map] at calculable
    | ok known =>
        cases known with
        | none => simp [valued, Except.map] at calculable
        | some n => exact ⟨n, rfl⟩

theorem value_of_isCalculable_error {e : Expr} {cause : OverflowFault}
    (overflows : e.isCalculable = .error cause) : e.value = .error cause := by
  unfold isCalculable at overflows
  split at overflows
  · simp at overflows
  · cases valued : e.value with
    | error other =>
        rw [valued] at overflows
        exact congrArg _ (Except.error.inj overflows)
    | ok known => simp [valued, Except.map] at overflows

theorem eq_ok_of_guarded {α : Type} {attempt : Except OverflowFault α} {value : α}
    (passed : guarded attempt = .ok value) : attempt = .ok value := by
  unfold guarded at passed
  split at passed
  · exact congrArg _ (Except.ok.inj passed)
  · simp at passed

theorem calculated_of_calculateAt {e result : Expr} {address : Address} {name : String}
    (calculated : e.calculateAt address = .ok (result, name)) :
    ∃ target n, e.resolve address = .ok target ∧ target.isCalculable = .ok true ∧
      target.value = .ok (some n) ∧ e.replace (ofNumber n) address = .ok result := by
  obtain ⟨⟨eq, text⟩, found, turned⟩ := Attempt.bind_eq_ok.mp calculated
  obtain ⟨stepped, deduced, same⟩ := Attempt.bind_eq_ok.mp turned
  obtain ⟨rfl, -⟩ := Prod.mk.inj (Except.ok.inj same)
  obtain ⟨target, resolved, rest⟩ := Attempt.bind_eq_ok.mp found
  split at rest
  · exact absurd rest (Attempt.stepFault_ne_ok _ _)
  obtain ⟨calculable, guard, rest⟩ := Attempt.bind_eq_ok.mp rest
  cases calculable with
  | false => exact absurd rest (Attempt.stepFault_ne_ok _ _)
  | true =>
      obtain ⟨known, valued, rest⟩ := Attempt.bind_eq_ok.mp rest
      cases known with
      | none => exact absurd rest (Attempt.stepFault_ne_ok _ _)
      | some n =>
          obtain ⟨rfl, -⟩ := Prod.mk.inj (Except.ok.inj rest)
          refine ⟨target, n, resolved, eq_ok_of_guarded guard, eq_ok_of_guarded valued, ?_⟩
          obtain ⟨other, again, deduced⟩ := Attempt.bind_eq_ok.mp deduced
          obtain rfl := Except.ok.inj (resolved.symm.trans again)
          obtain ⟨image, settled, replaced⟩ := Attempt.bind_eq_ok.mp deduced
          rw [byEquation_equation, maxGroundings, settle_self] at settled
          exact Except.ok.inj settled ▸ replaced

theorem calculateAt_eq_ok {e result : Expr} {address : Address} {name : String}
    (calculated : e.calculateAt address = .ok (result, name)) :
    ∃ target n, e.resolve address = .ok target ∧ target.value = .ok (some n) ∧
      e.replace (ofNumber n) address = .ok result := by
  obtain ⟨target, n, resolved, _, valued, replaced⟩ := calculated_of_calculateAt calculated
  exact ⟨target, n, resolved, valued, replaced⟩

theorem calculateAt_of_replace {e target result : Expr} {address : Address} {n : Number}
    (resolved : e.resolve address = .ok target) (closed : target.containsVariable = false)
    (calculable : target.isCalculable = .ok true) (valued : target.value = .ok (some n))
    (replaced : e.replace (ofNumber n) address = .ok result) :
    e.calculateAt address =
      .ok (result, "Calculate " ++ target.toInfix false ++ " = " ++ n.text) := by
  have found : e.calculation address =
      .ok (equation target (ofNumber n), "Calculate " ++ target.toInfix false ++ " = " ++ n.text) := by
    refine Attempt.bind_eq_ok.mpr ⟨target, resolved, ?_⟩
    rw [closed, calculable, valued]
    rfl
  have turned : e.byEquationAt (equation target (ofNumber n)) address = .ok result := by
    refine Attempt.bind_eq_ok.mpr ⟨target, resolved, ?_⟩
    rw [byEquation_equation, maxGroundings, settle_self]
    exact replaced
  exact Attempt.bind_eq_ok.mpr ⟨_, found, Attempt.bind_eq_ok.mpr ⟨result, turned, rfl⟩⟩

theorem exists_calculateAt {e target : Expr} (shaped : e.WellShaped) {address : Address}
    (resolved : e.resolve address = .ok target) (calculable : target.isCalculable = .ok true) :
    ∃ result name, e.calculateAt address = .ok (result, name) := by
  obtain ⟨path, pair⟩ := address
  obtain ⟨n, valued⟩ := value_of_isCalculable calculable
  have closed := closed_of_value (shaped.resolve resolved) valued
  obtain ⟨result, replaced, _⟩ := exists_replace shaped (isOperand_ofNumber n) resolved
  exact ⟨result, _, calculateAt_of_replace resolved closed calculable valued replaced⟩

end Stepwise.Expr
