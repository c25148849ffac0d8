import Stepwise.Proofs.Deduction.Shaped
import Stepwise.Proofs.Deduction.Step
import Stepwise.Proofs.Expr.Lens

/-!
How selecting, grafting and grounding can fail. Selecting fails only as a step does, and what is no
marker can be put in the place of anything. Grounding can fail where the number of copies cannot be
told, and where a variable is bound to a variadic marker, which then comes to stand elsewhere than
alone under a train.
-/

namespace Stepwise

namespace Expr

theorem build_ends {kind : Kind} {children : List Expr}
    (count : countFault? kind children.length = none) (symbol : String) :
    (build kind symbol children).Ends (· = node kind symbol children) fun fault =>
      fault = .shape .strayMarker ∧ ∃ child ∈ children, child.isMarker = true := by
  unfold build
  split
  · rename_i cause broken
    simp only [shapeFault?, count] at broken
    split at broken
    · rename_i stray
      simp only [Bool.and_eq_true, List.any_eq_true] at stray
      exact ⟨congrArg Fault.shape (Option.some.inj broken).symm, stray.1⟩
    · simp at broken
  · rfl

theorem nodeAtFrom_ends (root : Expr) (depth : Nat) (e : Expr) (path : List Int) :
    (nodeAtFrom root depth e path).Ends (fun _ => True) Fault.IsStep := by
  induction path generalizing depth e with
  | nil => trivial
  | cons index path ih =>
      rw [nodeAtFrom]
      split
      · exact ih _ _
      · exact ⟨_, rfl⟩

theorem resolve_ends {e : Expr} (shaped : e.WellShaped) (address : Address) :
    (e.resolve address).Ends WellShaped Fault.IsStep := by
  have operand : (const "0").isMarker = false := rfl
  rcases resolve_replace_outcomes shaped operand address with
    ⟨target, _, found, _⟩ | ⟨_, _, ⟨cause, failed, _⟩, _⟩
  · rw [found]
    exact shaped.resolve found
  · rw [failed]
    exact ⟨cause, rfl⟩

theorem exists_replace {e target new : Expr} (shaped : e.WellShaped) (operand : new.IsOperand)
    {path : List Int} {pair : Option Int} (resolved : e.resolve ⟨path, pair⟩ = .ok target) :
    ∃ result, e.replace new ⟨path, pair⟩ = .ok result ∧
      (result.isMarker = true → e.isMarker = true) := by
  obtain ⟨part, reached, found⟩ := Attempt.bind_eq_ok.mp resolved
  cases pair with
  | none => exact exists_replace_node shaped reached new (by simp [operand.2])
  | some index =>
      rcases pair_outcomes (shaped.nodeAt reached) operand.2 index with
        ⟨symbol, before, left, right, after, _, _, _, put⟩ | ⟨_, _, fails, _⟩
      · obtain ⟨result, replaced, marks⟩ := exists_replace_node shaped reached
          (train symbol (before ++ new :: after)) fun marks => nomatch marks
        exact ⟨result, replace_pair_iff.mpr ⟨part, _, reached, put, replaced⟩, marks⟩
      · exact absurd found (fails.ne_ok target)

end Expr

namespace Bindings

/-- The number of copies can be read, if one is bound. -/
def ReadsArity (bindings : Bindings) : Prop :=
  bindings.arity = .ok none ∨ ∃ count : Nat, 1 ≤ count ∧ bindings.arity = .ok (some (count : Int))

theorem ReadsArity.readable {bindings : Bindings} (reads : bindings.ReadsArity) :
    ∃ arity, bindings.arity = .ok arity := by
  rcases reads with unbound | ⟨count, _, arity⟩
  · exact ⟨none, unbound⟩
  · exact ⟨some count, arity⟩

theorem ReadsArity.not_miscounts {bindings : Bindings} (reads : bindings.ReadsArity)
    (fault : Fault) : ¬bindings.Miscounts fault := by
  intro miscounts
  rcases reads with unbound | ⟨count, positive, bound⟩
  · cases miscounts with
    | unread failed => simp [unbound] at failed
    | few read _ => simp [unbound] at read
  · cases miscounts with
    | unread failed => simp [bound] at failed
    | few read few =>
        obtain rfl := Option.some.inj (Except.ok.inj (bound.symm.trans read))
        omega

def HasMarker (bindings : Bindings) : Prop :=
  ∃ name value, bindings.find? name = some value ∧ value.isMarker = true

end Bindings

namespace Expr

section

variable {bindings : Bindings} {Q : Fault → Prop}

theorem build_single_train (symbol : String) (e : Expr) :
    build .train symbol [e] = .ok (train symbol [e]) := by
  simp [build, shapeFault?, countFault?, train]

/-- An instance exists, unless copies are miscounted or a variable is bound to a marker; and its
root is a marker only if the template's is, or by such a variable. -/
theorem instantiate_ends {e : Expr} (shaped : e.WellShaped)
    (counts : e.MarkerFree ∨ ∀ fault, bindings.Miscounts fault → Q fault)
    (strays : bindings.HasMarker → Q (.shape .strayMarker)) :
    (e.instantiate bindings).Ends
      (fun image => image.isMarker = true → e.isMarker = true ∨ bindings.HasMarker) Q := by
  refine instantiateRenamed_ends
    (P := fun e image => image.isMarker = true → e.isMarker = true ∨ bindings.HasMarker)
    (K := fun e _ => e.MarkerFree ∨ ∀ fault, bindings.Miscounts fault → Q fault)
    ?_ shaped counts
  have built {kind : Kind} (symbol : String) {children images : List Expr}
      (count : countFault? kind images.length = none)
      (each : ∀ image ∈ images, image.isMarker = true → bindings.HasMarker) :
      (build kind symbol images).Ends (fun image => image.isMarker = true →
        (node kind symbol children).isMarker = true ∨ bindings.HasMarker) Q := by
    refine (build_ends count symbol).imp ?_ ?_
    · rintro _ _ rfl isMarker
      exact Or.inl isMarker
    · rintro fault ⟨rfl, image, member, isMarker⟩
      exact strays (each image member isMarker)
  constructor
  · intro symbol names _ isMarker
    have values : bindings.AllValues fun value => value.isMarker = true → bindings.HasMarker :=
      fun name value known isMarker => ⟨name, value, known, isMarker⟩
    exact Or.inr (values.toSubst (fun isMarker => nomatch isMarker) isMarker)
  · exact fun _ counts _ _ child member =>
      counts.imp_left fun free => ((markerFree_node _ _ _).mp free).2 child member
  · exact fun _ counts _ => Or.inr (counts.resolve_left (by simp [markerFree_node]))
  · exact fun counts => counts.resolve_left (by simp [markerFree_node])
  · intro kind symbol children images names shaped _ assembled
    cases assembled with
    | plain _ plain count each =>
        refine built symbol (count ▸ countFault?_of_wellShaped shaped) fun image member isMarker => ?_
        obtain ⟨child, inChildren, captured⟩ := each image member
        simpa [shaped.child_isMarker_eq_false plain inChildren] using captured isMarker
    | kept _ _ =>
        rw [build_single_train]
        exact fun isMarker => absurd isMarker Bool.false_ne_true
    | expanded _ positive each =>
        refine built symbol (by simpa [countFault?] using positive) fun image member isMarker => ?_
        obtain ⟨inner, same, _, notMarker⟩ := (shaped.child (List.mem_singleton_self _)).marker
        obtain rfl := List.singleton_inj.mp same
        simpa [notMarker] using each image member isMarker

theorem grounded_ends {lhs rhs : Expr} (values : bindings.AllValues WellShaped)
    (left : lhs.IsOperand) (right : rhs.IsOperand)
    (counts : lhs.MarkerFree ∧ rhs.MarkerFree ∨ ∀ fault, bindings.Miscounts fault → Q fault)
    (symbol : String) {next : Expr → Expr → Attempt Expr} {P : Expr → Prop}
    (strays : bindings.HasMarker → Q (.shape .strayMarker))
    (later : ∀ groundLhs groundRhs, lhs.instantiate bindings = .ok groundLhs →
      rhs.instantiate bindings = .ok groundRhs → groundLhs.IsOperand → groundRhs.IsOperand →
        (next groundLhs groundRhs).Ends P Q) :
    (lhs.instantiate bindings >>= fun groundLhs => rhs.instantiate bindings >>= fun groundRhs =>
      build .statement symbol [groundLhs, groundRhs] >>= fun _ =>
        next groundLhs groundRhs).Ends P Q := by
  have leftEnds := instantiate_ends left.1 (counts.imp_left And.left) strays
  have rightEnds := instantiate_ends right.1 (counts.imp_left And.right) strays
  refine leftEnds.bind fun groundLhs builtLhs leftMarker => ?_
  refine rightEnds.bind fun groundRhs builtRhs rightMarker => ?_
  refine Attempt.Ends.bind (P := (· = node .statement symbol [groundLhs, groundRhs])) ?_ ?_
  · refine (build_ends (by rfl) symbol).imp_fault ?_
    rintro fault ⟨rfl, image, member, isMarker⟩
    refine strays ?_
    rcases List.mem_cons.mp member with rfl | other
    · simpa [left.2] using leftMarker isMarker
    · obtain rfl := List.mem_singleton.mp other
      simpa [right.2] using rightMarker isMarker
  · intro statement built _
    have leftShaped := wellShaped_of_instantiateRenamed values left.1 builtLhs
    have rightShaped := wellShaped_of_instantiateRenamed values right.1 builtRhs
    have both := wellShaped_of_build built (by simp [leftShaped, rightShaped])
    rw [eq_of_build built] at both
    exact later groundLhs groundRhs builtLhs builtRhs both.sides.1 both.sides.2

end

end Expr

end Stepwise
