import Stepwise.Algebra.BothSides
import Stepwise.Proofs.Deduction.Failure
import Stepwise.Proofs.Rule.Application

/-!
What a deduction raises, whatever it is applied to: the fault of a step, which a search passes over,
or an invalid argument, which is reported to the user.
-/

namespace Stepwise

def Fault.IsRecoverable (fault : Fault) : Prop := fault.IsStep ∨ fault.isInvalidArgument = true

namespace Attempt

variable {α β : Type}

def Recovers (attempt : Attempt α) : Prop := attempt.Ends (fun _ => True) Fault.IsRecoverable

theorem Recovers.bind {attempt : Attempt α} (recovers : attempt.Recovers) {next : α → Attempt β}
    (later : ∀ value, attempt = .ok value → (next value).Recovers) :
    (attempt >>= next).Recovers :=
  Ends.bind recovers fun value finished _ => later value finished

theorem recovers_step (cause : StepFault) : (stepFault cause : Attempt α).Recovers :=
  Or.inl ⟨cause, rfl⟩

theorem recovers_ok (value : α) : Recovers (.ok value) := trivial

theorem recovers_mapM {f : β → Attempt α} (each : ∀ x, (f x).Recovers) (xs : List β) :
    (xs.mapM f).Recovers :=
  (ends_mapM fun x _ => each x).imp (fun _ _ _ => trivial) fun _ known => known

theorem Ends.orSkip {attempt : Attempt α} {P : α → Prop} {Q : Fault → Prop}
    (ends : attempt.Ends P Q) :
    attempt.orSkip.Ends (fun outcome => ∀ value, outcome = some value → attempt = .ok value)
      fun fault => Q fault ∧ ¬fault.IsStep := by
  cases attempt with
  | ok value =>
      rintro _ same
      rw [Option.some.inj same]
  | error fault =>
      cases fault
      case step cause => simp [Attempt.orSkip, Ends]
      all_goals
        refine ⟨ends, ?_⟩
        rintro ⟨cause, same⟩
        simp at same

theorem Recovers.orSkip {attempt : Attempt α} (recovers : attempt.Recovers) :
    attempt.orSkip.Ends (fun outcome => ∀ value, outcome = some value → attempt = .ok value)
      fun fault => fault.isInvalidArgument = true :=
  (Ends.orSkip recovers).imp_fault fun _ known => known.1.resolve_left known.2

end Attempt

namespace Expr

open Attempt

theorem build_recovers (kind : Kind) (symbol : String) (children : List Expr) :
    (build kind symbol children).Recovers := by
  unfold build
  split
  · exact Or.inr rfl
  · trivial

theorem nodeAt_recovers (e : Expr) (path : List Int) : (e.nodeAt path).Recovers :=
  (nodeAtFrom_ends e 0 e path).imp (fun _ _ _ => trivial) fun _ isStep => Or.inl isStep

theorem resolve_recovers (e : Expr) (address : Address) : (e.resolve address).Recovers := by
  refine (nodeAt_recovers e _).bind fun target _ => ?_
  split
  · exact recovers_ok _
  · unfold pairAt
    split
    · split
      · exact recovers_step _
      · exact build_recovers _ _ _
    · exact recovers_step _

theorem replace_recovers (e new : Expr) (address : Address) : (e.replace new address).Recovers := by
  obtain ⟨path, pair⟩ := address
  unfold replace
  induction path generalizing e with
  | nil =>
      cases pair with
      | none => exact recovers_ok _
      | some index =>
          change (e.replacePair new index).Recovers
          unfold replacePair
          split
          · split
            · exact recovers_step _
            · exact build_recovers _ _ _
          · exact recovers_step _
  | cons index path ih =>
      rw [replaceFrom]
      split
      · exact recovers_step _
      · exact (ih _).bind fun _ _ => build_recovers _ _ _

theorem arity_recovers (bindings : Bindings) : bindings.arity.Recovers := by
  unfold Bindings.arity
  split
  · exact recovers_ok _
  · split
    · exact recovers_ok _
    · exact Or.inr rfl

theorem instantiateRenamed_recovers (bindings : Bindings) (names : String → String) (e : Expr) :
    (instantiateRenamed bindings names e).Recovers := by
  induction e using templateInduction generalizing names with
  | var symbol children =>
      rw [instantiateRenamed]
      trivial
  | variadicTrain symbol mark template ih =>
      rw [instantiateRenamed]
      refine (arity_recovers bindings).bind fun arity _ => ?_
      cases arity with
      | none =>
          refine (ih names).bind fun inner _ => ?_
          exact (build_recovers _ _ _).bind fun _ _ => build_recovers _ _ _
      | some count =>
          change Recovers (if count < 1 then _ else _)
          split
          · exact Or.inr rfl
          · exact (recovers_mapM (fun _ => ih _) _).bind fun _ _ => build_recovers _ _ _
  | other kind symbol children notVar plain each =>
      rw [instantiateRenamed_node _ _ _ _ _ notVar plain]
      refine Ends.bind (instantiateEach_ends fun child member => each child member names) ?_
      exact fun _ _ _ => build_recovers _ _ _

theorem instantiate_recovers (bindings : Bindings) (e : Expr) : (e.instantiate bindings).Recovers :=
  instantiateRenamed_recovers bindings id e

theorem matchHere_recovers (subject pattern : Expr) : (subject.matchHere pattern).Recovers := by
  unfold matchHere
  split
  · exact recovers_ok _
  · exact recovers_step _

theorem settle_recovers (target : Expr) (passes : Nat) (lhs rhs : Expr) :
    (settle target passes lhs rhs).Recovers := by
  induction passes generalizing lhs rhs with
  | zero => exact recovers_step _
  | succ passes ih =>
      rw [settle]
      split
      · exact recovers_ok _
      · refine (matchHere_recovers _ _).bind fun bindings _ => ?_
        refine (instantiate_recovers _ _).bind fun groundLhs _ => ?_
        refine (instantiate_recovers _ _).bind fun groundRhs _ => ?_
        refine (build_recovers _ _ _).bind fun _ _ => ?_
        split
        · exact recovers_step _
        · exact ih _ _

theorem byEquationAt_recovers (e eq : Expr) (address : Address) :
    (e.byEquationAt eq address).Recovers := by
  refine (resolve_recovers _ _).bind fun target _ => ?_
  refine Recovers.bind ?_ fun _ _ => replace_recovers _ _ _
  unfold byEquation
  split
  · exact recovers_step _
  · exact settle_recovers _ _ _ _

theorem infer_recovers (e imp : Expr) : (e.infer imp).Recovers := by
  unfold infer
  split
  · exact recovers_step _
  · split
    · refine (matchHere_recovers _ _).bind fun bindings _ => ?_
      refine (instantiate_recovers _ _).bind fun groundPremise _ => ?_
      refine (instantiate_recovers _ _).bind fun groundConclusion _ => ?_
      refine (build_recovers _ _ _).bind fun _ _ => ?_
      split
      · exact recovers_ok _
      · exact recovers_step _
    · split
      · exact recovers_ok _
      · exact recovers_step _

theorem onBothSides_recovers (e fn : Expr) : (e.onBothSides fn).Recovers := by
  unfold onBothSides
  split
  · split
    · exact recovers_step _
    · refine (infer_recovers _ _).bind fun applied _ => ?_
      exact (byEquationAt_recovers _ _ _).bind fun _ _ => byEquationAt_recovers _ _ _
  · exact recovers_step _

theorem swapTerms_recovers (e : Expr) (i j : Int) : (e.swapTerms i j).Recovers := by
  unfold swapTerms
  split
  · split
    · exact build_recovers _ _ _
    · exact recovers_step _
  · exact recovers_step _

end Expr

theorem Rule.applyAt_recovers (rule : Rule) (e : Expr) (address : Address) :
    (rule.applyAt e address).Recovers := by
  unfold applyAt
  split
  · exact Expr.byEquationAt_recovers _ _ _
  · split
    · exact Expr.infer_recovers _ _
    · exact Attempt.recovers_step _

end Stepwise
