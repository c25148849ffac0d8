import Stepwise.Proofs.NormalForm.Regular

/-!
Steps keep trees regular, unless an equation with variadic trains on its left side captures the
marker of a variadic train as its only copy: then a train with one term can come of it.
-/

namespace Stepwise

namespace Bindings

/-- If a number of copies is bound, there are two or more. -/
def Spreads (bindings : Bindings) : Prop :=
  ∀ count, bindings.arity = .ok (some count) → 2 ≤ count

end Bindings

namespace Expr

variable {ops : List String}

theorem regular_of_build {kind : Kind} {symbol : String} {children : List Expr}
    (known : regularNodes ops kind symbol = true)
    (enough : (node kind symbol children).isGroupOf symbol = true → 2 ≤ children.length)
    (each : ∀ child ∈ children, child.Regular ops several) :
    (build kind symbol children).Ends (Regular ops several) fun _ => True := by
  unfold build
  split
  · trivial
  · rename_i fits
    refine ⟨(wellShaped_node _ _ _).mpr ⟨fits, fun child member => (each child member).shaped⟩, ?_,
      (groups_iff _).mpr ⟨fun isGroup => ?_, fun child member => (each child member).groups⟩⟩
    · exact (formed_node _ _ _).mpr ⟨⟨((shapeFault?_eq_none_iff _ _).mp fits).1, known⟩,
        fun child member => (each child member).formed⟩
    · exact decide_eq_true (enough isGroup)

theorem regular_of_instantiateRenamed {bindings : Bindings} (spreads : bindings.Spreads)
    (values : bindings.AllValues (Regular ops several)) {e : Expr} (regular : e.Regular ops several)
    {names : String → String} (named : ∀ name ∈ e.occurrences false, names name ≠ ellipsis) :
    (instantiateRenamed bindings names e).Ends (Regular ops several) fun _ => True := by
  refine (instantiateRenamed_ends
    (P := fun e image => image.Regular ops several ∧ (e.isMarker = true → image.isMarker = true))
    (K := fun e names => e.Regular ops several ∧
      ∀ name ∈ e.occurrences false, names name ≠ ellipsis)
    ?_ regular.shaped ⟨regular, named⟩).imp (fun _ _ holds => holds.1) fun _ fails => fails
  constructor
  · rintro symbol names ⟨_, named⟩
    exact ⟨values.toSubst (regular_var (named symbol (by simp [var]))),
      fun isMarker => nomatch isMarker⟩
  · rintro kind symbol children names _ ⟨regular, named⟩ notVar _ child member
    exact ⟨regular.child member, fun name occurs =>
      named name (mem_occurrences_of_child notVar member occurs)⟩
  · rintro symbol mark template names _ ⟨regular, named⟩ index
    have marker := regular.child (List.mem_singleton_self _)
    exact ⟨marker.child (List.mem_singleton_self _), fun name occurs =>
      copyName_ne_ellipsis (named name (mem_occurrences_of_template occurs)) _ _⟩
  · exact fun _ _ _ => trivial
  · rintro kind symbol children images names shaped ⟨regular, _⟩ assembled
    have fits := ((formed_node _ _ _).mp regular.formed).1.2
    have built (enough : (node kind symbol images).isGroupOf symbol = true → 2 ≤ images.length)
        (each : ∀ image ∈ images, image.Regular ops several) :
        (build kind symbol images).Ends (fun image => image.Regular ops several ∧
          ((node kind symbol children).isMarker = true → image.isMarker = true))
          fun _ => True := by
      refine (regular_of_build fits enough each).imp ?_ fun _ fails => fails
      intro image same imageRegular
      exact ⟨imageRegular, fun isMarker => eq_of_build same ▸ isMarker⟩
    cases assembled with
    | plain _ plain count each =>
        refine built (fun isGroup => ?_) fun image member => (each image member).choose_spec.2.1
        rw [count]
        exact of_decide_eq_true (regular.groups.here ((isGroupOf_iff _ _ _ _).mpr
          ⟨((isGroupOf_iff _ _ _ _).mp isGroup).1, rfl, plain⟩))
    | @kept _ mark _ image _ marker =>
        -- With a marker again, the train is no group.
        refine built (fun isGroup => ?_) (by simpa using marker.1)
        have single : (node .train symbol [image]).WellShaped :=
          wellShaped_of_build (build_single_train symbol image) (by simpa using marker.1.shaped)
        have variadic := single.isVariadicTrain_iff.mpr ⟨image, by simp, marker.2 rfl⟩
        simp [isGroupOf, variadic] at isGroup
    | expanded count _ each =>
        refine built (fun _ => ?_) fun image member => (each image member).1
        have several := spreads _ count
        omega

theorem Regular.instantiate {bindings : Bindings} (spreads : bindings.Spreads)
    (values : bindings.AllValues (Regular ops several)) {e image : Expr}
    (regular : e.Regular ops several) (built : e.instantiate bindings = .ok image) :
    image.Regular ops several := by
  refine (regular_of_instantiateRenamed spreads values regular ?_).value built
  rintro name member rfl
  exact regular.formed.unnamed member

section

variable {target pattern : Expr} {bindings : Bindings}

theorem regular_values (regular : target.Regular ops several)
    (found : target.bindings? pattern = some bindings) :
    bindings.AllValues (Regular ops several) :=
  bindings?_values (fun _ _ _ holds _ member => holds.child member) (fun _ => regular_const _)
    regular found

theorem spreads_of_markerFree (regular : pattern.Regular ops several) (free : pattern.MarkerFree)
    (found : target.bindings? pattern = some bindings) : bindings.Spreads := by
  have unnamed := regular.formed.unnamed
  rw [Unnamed, ← mem_variableNames] at unnamed
  have unbound := arity_of_unbound (ellipsis_not_mem_keys regular.shaped free found unnamed)
  intro count arity
  simp [unbound] at arity

theorem trainLengths_of_markerFree (regular : target.Regular ops several)
    (free : target.MarkerFree) : target.TrainLengths (2 ≤ ·) := by
  induction target using Expr.induction with
  | node kind symbol children each =>
      obtain ⟨_, inner⟩ := (markerFree_node _ _ _).mp free
      refine (trainLengths_node _ _ _ _).mpr
        ⟨?_, fun child member => each child member (regular.child member) (inner child member)⟩
      rintro rfl
      have isGroup : (node .train symbol children).isGroupOf symbol = true :=
        (isGroupOf_iff _ _ _ _).mpr ⟨Or.inr rfl, rfl, free.template?_eq_none⟩
      exact of_decide_eq_true (regular.groups.here isGroup)

theorem spreads_of_plain (targetRegular : target.Regular ops several) (free : target.MarkerFree)
    (regular : pattern.Regular ops several) (root : pattern.isMarker = false)
    (found : target.bindings? pattern = some bindings) : bindings.Spreads := by
  by_cases variadic : pattern.HasVariadicTrain
  · obtain ⟨number, several, counted⟩ := matchNode_counts pattern.fixedVariables target
      (trainLengths_of_markerFree targetRegular free) pattern regular.shaped variadic [] bindings
      found
    intro count arity
    rcases arity_cases counted with same | ⟨fault, failed⟩
    · have read := Option.some.inj (Except.ok.inj (arity.symm.trans same))
      omega
    · simp [failed] at arity
  · exact spreads_of_markerFree regular
      (markerFree_of_not_hasVariadicTrain regular.shaped root variadic) found

end

/-- The left side, or what it is grounded to on the way to the target, matches the target with a
single copy of its variadic trains. In a regular tree that copy is a marker. -/
inductive BindsSingle (target : Expr) : Expr → Prop
  | here {lhs : Expr} {bindings : Bindings} : lhs ≠ target →
      target.bindings? lhs = some bindings → bindings.arity = .ok (some 1) → BindsSingle target lhs
  | later {lhs ground : Expr} {bindings : Bindings} : lhs ≠ target →
      target.bindings? lhs = some bindings → lhs.instantiate bindings = .ok ground →
        ground.isMarker = false → BindsSingle target ground → BindsSingle target lhs

section

variable {target lhs : Expr} {bindings : Bindings}

theorem spreads_of_not_single (regular : target.Regular ops several) (left : lhs.Regular ops several)
    (root : lhs.isMarker = false) (found : target.bindings? lhs = some bindings)
    (notSingle : bindings.arity ≠ .ok (some 1)) : bindings.Spreads := by
  obtain ⟨number, positive, counted⟩ := exists_counted regular.shaped left.shaped root found
  rcases counted with free | counted
  · exact spreads_of_markerFree left free found
  · intro count arity
    rcases arity_cases counted with same | ⟨fault, failed⟩
    · obtain rfl := Option.some.inj (Except.ok.inj (arity.symm.trans same))
      have notOne : number ≠ 1 := by
        rintro rfl
        exact notSingle same
      omega
    · simp [failed] at arity

theorem not_bindsSingle_of_plain (regular : target.Regular ops several)
    (left : lhs.Regular ops several) (root : lhs.isMarker = false)
    (free : lhs.MarkerFree ∨ target.MarkerFree) : ¬target.BindsSingle lhs := by
  intro single
  induction single with
  | here _ found arity =>
      have spreads := free.elim (fun free => spreads_of_markerFree left free found)
        fun free => spreads_of_plain regular free left root found
      exact absurd (spreads 1 arity) (by omega)
  | later _ found built groundRoot below ih =>
      rcases free with free | free
      · -- The instance of a left side without markers is the target itself.
        have closes := instantiate_of_markerFree regular.shaped left.shaped free found
        obtain rfl := Except.ok.inj (closes.symm.trans built)
        cases below with
        | here differs => exact differs rfl
        | later differs => exact differs rfl
      · have spreads := spreads_of_plain regular free left root found
        exact ih (left.instantiate spreads (regular_values regular found) built) groundRoot
          (Or.inr free)

end

/-! Equations. -/

def KeepsRegular (ops : List String) (lhs rhs target : Expr) : Prop :=
  ∀ image, settle target maxGroundings lhs rhs = .ok image →
    target.isMarker = false ∧ image.isMarker = false ∧ image.Regular ops several

section

variable {lhs rhs target : Expr}

theorem regular_of_settle (regular : target.Regular ops several) (left : lhs.Regular ops several)
    (right : rhs.Regular ops several) (leftRoot : lhs.isMarker = false)
    (rightRoot : rhs.isMarker = false) (notSingle : ¬target.BindsSingle lhs) {passes : Nat}
    {image : Expr} (settled : settle target passes lhs rhs = .ok image) :
    target.isMarker = false ∧ image.isMarker = false ∧ image.Regular ops several := by
  induction passes generalizing lhs rhs with
  | zero => exact absurd settled (Attempt.stepFault_ne_ok _ _)
  | succ passes ih =>
      by_cases closed : lhs = target
      · subst closed
        rw [settle_self] at settled
        obtain rfl := Except.ok.inj settled
        exact ⟨leftRoot, rightRoot, right⟩
      · obtain ⟨bindings, groundLhs, groundRhs, rest, found, builtLhs, builtRhs, leftGround,
          rightGround, same, later⟩ := (settle_eq_ok settled).resolve_left (by simp [closed])
        obtain rfl := Nat.succ.inj same
        have spreads := spreads_of_not_single regular left leftRoot found
          fun single => notSingle (.here closed found single)
        have values := regular_values regular found
        exact ih (left.instantiate spreads values builtLhs)
          (right.instantiate spreads values builtRhs) leftGround rightGround
          (fun single => notSingle (.later closed found builtLhs leftGround single)) later

theorem keepsRegular_of_not_single (sides : (equation lhs rhs).Regular ops several)
    (regular : target.Regular ops several) (notSingle : ¬target.BindsSingle lhs) :
    KeepsRegular ops lhs rhs target := by
  have left := sides.child (List.mem_cons_self ..)
  have right := sides.child (List.mem_cons_of_mem _ (List.mem_singleton_self rhs))
  have roots := sides.shaped.sides
  exact fun image settled =>
    regular_of_settle regular left right roots.1.2 roots.2.2 notSingle settled

theorem keepsRegular_of_plain (sides : (equation lhs rhs).Regular ops several)
    (regular : target.Regular ops several) (free : lhs.MarkerFree ∨ target.MarkerFree) :
    KeepsRegular ops lhs rhs target :=
  keepsRegular_of_not_single sides regular (not_bindsSingle_of_plain regular
    (sides.child (List.mem_cons_self ..)) sides.shaped.sides.1.2 free)

theorem Regular.byEquationAt {e result : Expr} {address : Address} (regular : e.Regular ops several)
    (fits : address.pair = none ∨ e.TrainLengths (· ≠ 2))
    (keeps : ∀ target, e.resolve address = .ok target → target.Regular ops several →
      KeepsRegular ops lhs rhs target)
    (stepped : e.byEquationAt (equation lhs rhs) address = .ok result) :
    result.Regular ops several ∧ result.isMarker = e.isMarker := by
  obtain ⟨target, resolved, rest⟩ := Attempt.bind_eq_ok.mp stepped
  obtain ⟨image, turned, replaced⟩ := Attempt.bind_eq_ok.mp rest
  obtain ⟨targetRoot, imageRoot, imageRegular⟩ :=
    keeps target resolved (regular.resolve resolved) image turned
  obtain ⟨path, pair⟩ := address
  refine ⟨?_, isMarker_of_replace resolved targetRoot imageRoot replaced⟩
  exact imageRegular.replace (fun _ _ enough => decide_eq_true enough) imageRoot targetRoot
    regular fits resolved replaced

end

theorem Regular.infer {e premise conclusion result : Expr} (regular : e.Regular ops several)
    (sides : (implication premise conclusion).Regular ops several) (free : premise.MarkerFree)
    (stepped : e.infer (implication premise conclusion) = .ok result) :
    result.Regular ops several ∧ result.isMarker = false := by
  have left := sides.child (List.mem_cons_self ..)
  have right := sides.child (List.mem_cons_of_mem _ (List.mem_singleton_self conclusion))
  rcases infer_eq_ok stepped with ⟨_, rfl⟩ | ⟨bindings, found, _, built, root⟩
  · exact ⟨right, sides.shaped.sides.2.2⟩
  · exact ⟨right.instantiate (spreads_of_markerFree left free found) (regular_values regular found)
      built, root⟩

end Expr

end Stepwise
