import Stepwise.Proofs.Deduction.Failure

/-!
How a deduction can fail: as a step does, by a marker that would stray, or by a number of copies
that cannot be told. Where copies are counted by numerals, the last does not occur, and where no
marker is captured, every failure is one that a search passes over.
-/

namespace Stepwise

namespace Fault

def IsStepOrStray (fault : Fault) : Prop := fault.IsStep ∨ fault = .shape .strayMarker

/-- What stands for the number of copies is no integer, or it is not positive. -/
def IsMiscount (fault : Fault) : Prop :=
  (∃ cause, fault = .literal cause) ∨ ∃ count : Int, count < 1 ∧ fault = .arity count

end Fault

theorem Bindings.Miscounts.isMiscount {bindings : Bindings} {fault : Fault}
    (miscounts : bindings.Miscounts fault) : fault.IsMiscount := by
  cases miscounts with
  | unread failed =>
      unfold arity at failed
      split at failed
      · simp at failed
      · split at failed
        · simp at failed
        · exact Or.inl ⟨_, (Except.error.inj failed).symm⟩
  | few _ few => exact Or.inr ⟨_, few, rfl⟩

namespace Expr

section

variable {target lhs rhs : Expr} {bindings : Bindings} {Q : Fault → Prop}

theorem settle_succ (passes : Nat) (found : target.bindings? lhs = some bindings)
    (differ : lhs ≠ target) :
    settle target (passes + 1) lhs rhs =
      (lhs.instantiate bindings >>= fun groundLhs => rhs.instantiate bindings >>= fun groundRhs =>
        build .statement "=" [groundLhs, groundRhs] >>= fun _ =>
          if groundLhs = lhs ∧ groundRhs = rhs then Attempt.stepFault (.lhsMismatch lhs target)
          else settle target passes groundLhs groundRhs) := by
  rw [settle, if_neg differ, matchHere_of_found found]
  rfl

theorem settle_pass_ends (targetShaped : target.WellShaped) (left : lhs.IsOperand)
    (right : rhs.IsOperand) {passes : Nat} (steps : ∀ cause, Q (.step cause))
    (counts : ∀ bindings, target.bindings? lhs = some bindings →
      lhs.MarkerFree ∧ rhs.MarkerFree ∨ ∀ fault, bindings.Miscounts fault → Q fault)
    (strays : ∀ bindings, target.bindings? lhs = some bindings →
      bindings.HasMarker → Q (.shape .strayMarker))
    (next : ∀ bindings groundLhs groundRhs, target.bindings? lhs = some bindings →
      lhs.instantiate bindings = .ok groundLhs → rhs.instantiate bindings = .ok groundRhs →
        groundLhs.IsOperand → groundRhs.IsOperand →
          (settle target passes groundLhs groundRhs).Ends IsOperand Q) :
    (settle target (passes + 1) lhs rhs).Ends IsOperand Q := by
  by_cases same : lhs = target
  · subst same
    rw [settle_self]
    exact right
  · cases found : target.bindings? lhs with
    | none =>
        rw [settle_of_none passes found same]
        exact steps _
    | some bindings =>
        rw [settle_succ passes found same]
        refine grounded_ends (values_wellShaped targetShaped found) left right
          (counts bindings found) "=" (strays bindings found) ?_
        intro groundLhs groundRhs builtLhs builtRhs leftGround rightGround
        split
        · exact steps _
        · exact next bindings groundLhs groundRhs found builtLhs builtRhs leftGround rightGround

theorem settle_ends (targetShaped : target.WellShaped) (passes : Nat) (left : lhs.IsOperand)
    (right : rhs.IsOperand) :
    (settle target passes lhs rhs).Ends IsOperand fun fault =>
      fault.IsStepOrStray ∨ fault.IsMiscount := by
  induction passes generalizing lhs rhs with
  | zero => exact Or.inl (Or.inl ⟨_, rfl⟩)
  | succ passes ih =>
      refine settle_pass_ends targetShaped left right (fun cause => Or.inl (Or.inl ⟨cause, rfl⟩))
        (fun _ _ => Or.inr fun fault miscounts => Or.inr miscounts.isMiscount)
        (fun _ _ _ => Or.inl (Or.inr rfl)) ?_
      intro _ _ _ _ _ _ leftGround rightGround
      exact ih leftGround rightGround

theorem readsArity_of_found (targetShaped : target.WellShaped) (left : lhs.IsOperand)
    (named : ellipsis ∉ lhs.variableNames) (countable : lhs.MarkerFree ∨ target.Countable)
    (found : target.bindings? lhs = some bindings) : bindings.ReadsArity := by
  by_cases free : lhs.MarkerFree
  · exact Or.inl (arity_of_unbound (ellipsis_not_mem_keys left.1 free found named))
  · obtain ⟨count, counted⟩ := exists_counted targetShaped left.1 left.2 found
    have readable := (readable_of_countable countable left.1 left.2 found).resolve_left free
    exact Or.inr ⟨count, counted.1, counted.arity_eq free readable⟩

/-- No variable takes the name under which a match records the number of copies. -/
def Unnamed (e : Expr) : Prop := ellipsis ∉ e.occurrences false

instance (e : Expr) : Decidable e.Unnamed := inferInstanceAs (Decidable (¬_))

theorem Unnamed.child {kind : Kind} {symbol : String} {children : List Expr}
    (shaped : (node kind symbol children).WellShaped) (named : (node kind symbol children).Unnamed)
    {child : Expr} (member : child ∈ children) : child.Unnamed := by
  by_cases isVar : kind = .var
  · obtain rfl := shaped.children_eq_nil (Or.inr isVar)
    simp at member
  · exact fun occurs => named (mem_occurrences_of_child isVar member occurs)

theorem unnamed_values (targetShaped : target.WellShaped) (named : target.Unnamed)
    (found : target.bindings? lhs = some bindings) : bindings.AllValues Unnamed := by
  have values := bindings?_values (P := fun value => value.WellShaped ∧ value.Unnamed) ?_ ?_
    ⟨targetShaped, named⟩ found
  · exact fun name value known => (values name value known).2
  · rintro kind symbol children ⟨shaped, unnamed⟩ child member
    exact ⟨shaped.child member, unnamed.child shaped member⟩
  · intro count
    exact ⟨(plain_const _).1, by simp [Unnamed, const, occurrences_node]⟩

theorem unnamed_of_instantiate {e image : Expr} (shaped : e.WellShaped) (named : e.Unnamed)
    (values : bindings.AllValues Unnamed) (built : e.instantiate bindings = .ok image) :
    image.Unnamed := by
  have nodes (kind : Kind) (symbol : String) (children : List Expr) (notVar : kind ≠ .var)
      (each : ∀ child ∈ children, child.Unnamed) : (node kind symbol children).Unnamed := by
    rw [Unnamed, occurrences_node _ _ _ _ notVar]
    simpa [Unnamed] using each
  refine (of_instantiateRenamed (· ≠ ellipsis) True values ?_
    (fun name index other => copyName_ne_ellipsis other _ index) (fun _ => trivial)
    (fun kind symbol children notVar _ _ each => nodes kind symbol children notVar each) shaped
    (fun _ => trivial) ?_).value built
  · intro name other
    simp [Unnamed, var, other.symm]
  · rintro name member rfl
    exact named member

theorem settle_ends_of_counted (targetShaped : target.WellShaped) (targetNamed : target.Unnamed)
    (countable : target.Countable) (passes : Nat) (left : lhs.IsOperand) (right : rhs.IsOperand)
    (leftNamed : lhs.Unnamed) (rightNamed : rhs.Unnamed) :
    (settle target passes lhs rhs).Ends IsOperand Fault.IsStepOrStray := by
  induction passes generalizing lhs rhs with
  | zero => exact Or.inl ⟨_, rfl⟩
  | succ passes ih =>
      refine settle_pass_ends targetShaped left right (fun cause => Or.inl ⟨cause, rfl⟩) ?_
        (fun _ _ _ => Or.inr rfl) ?_
      · intro bindings found
        rw [Unnamed, ← mem_variableNames] at leftNamed
        have reads := readsArity_of_found targetShaped left leftNamed (Or.inr countable) found
        exact Or.inr fun fault miscounts => absurd miscounts (reads.not_miscounts fault)
      · intro bindings groundLhs groundRhs found builtLhs builtRhs leftGround rightGround
        have values := unnamed_values targetShaped targetNamed found
        exact ih leftGround rightGround (unnamed_of_instantiate left.1 leftNamed values builtLhs)
          (unnamed_of_instantiate right.1 rightNamed values builtRhs)

/-- The instance of the left side is the target: always where the left side has no markers, and
among names that stay apart. -/
def Closes (lhs : Expr) : Prop :=
  lhs.MarkerFree ∨ lhs.FlatTemplates ∧ Separate lhs.variableNames

theorem Closes.instantiate_eq (closes : lhs.Closes) (targetShaped : target.WellShaped)
    (left : lhs.IsOperand) (found : target.bindings? lhs = some bindings)
    (reads : lhs.MarkerFree ∨ bindings.ReadsArity) : lhs.instantiate bindings = .ok target := by
  by_cases free : lhs.MarkerFree
  · exact instantiate_of_markerFree targetShaped left.1 free found
  · obtain ⟨flat, separate⟩ := closes.resolve_left free
    obtain ⟨count, counted⟩ := exists_counted targetShaped left.1 left.2 found
    have readable := (reads.resolve_left free).readable
    exact instantiate_of_bindings? targetShaped left.1 left.2 flat separate found counted
      (Or.inr (counted.arity_eq free readable))

def Reads (bindings : Bindings) (lhs rhs : Expr) : Prop :=
  lhs.MarkerFree ∧ rhs.MarkerFree ∨ bindings.ReadsArity

theorem Reads.counts (reads : Reads bindings lhs rhs) :
    lhs.MarkerFree ∧ rhs.MarkerFree ∨ ∀ fault, bindings.Miscounts fault → Q fault :=
  reads.imp_right fun reads fault miscounts => absurd miscounts (reads.not_miscounts fault)

theorem settle_ends_of_closes (targetShaped : target.WellShaped) (left : lhs.IsOperand)
    (right : rhs.IsOperand) (passes : Nat) (closes : lhs.Closes) (steps : ∀ cause, Q (.step cause))
    (reads : ∀ bindings, target.bindings? lhs = some bindings → Reads bindings lhs rhs)
    (strays : ∀ bindings, target.bindings? lhs = some bindings →
      bindings.HasMarker → Q (.shape .strayMarker)) :
    (settle target (passes + 2) lhs rhs).Ends IsOperand Q := by
  refine settle_pass_ends targetShaped left right steps
    (fun bindings found => (reads bindings found).counts) strays ?_
  intro bindings groundLhs groundRhs found builtLhs _ _ rightGround
  have same := closes.instantiate_eq targetShaped left found
    ((reads bindings found).imp_left And.left)
  obtain rfl := Except.ok.inj (same.symm.trans builtLhs)
  rw [settle_self]
  exact rightGround

theorem not_hasMarker_of_plain (plain : target.Plain)
    (found : target.bindings? lhs = some bindings) : ¬bindings.HasMarker := by
  rintro ⟨name, value, known, isMarker⟩
  have values := bindings?_values (P := Plain) (fun _ _ _ holds _ member => holds.child member)
    (fun count => plain_const _) plain found
  simp [(values name value known).2.isMarker_eq_false] at isMarker

theorem markerFree_of_instantiate (plain : target.Plain)
    (found : target.bindings? lhs = some bindings) {count : Nat}
    (arity : bindings.arity = .ok (some (count : Int))) {e image : Expr} (operand : e.IsOperand)
    (built : e.instantiate bindings = .ok image) : image.MarkerFree := by
  have values := bindings?_values (P := MarkerFree)
    (fun _ _ _ holds _ member => ((markerFree_node _ _ _).mp holds).2 _ member)
    (fun count => (plain_const _).2) plain.2 found
  refine (of_instantiateRenamed (fun _ => True) False values
    (fun name _ => (plain_var name).2) (fun _ _ known => known) ?_ ?_ operand.1
    (by simp [operand.2]) fun _ _ => trivial).value built
  · rw [arity]
    simp
  · intro kind symbol children _ notMarker _ each
    exact (markerFree_node _ _ _).mpr ⟨notMarker, each⟩

theorem settle_ends_of_uncaptured (targetShaped : target.WellShaped) (left : lhs.IsOperand)
    (right : rhs.IsOperand) (passes : Nat) (closes : target.MarkerFree ∨ lhs.Closes)
    (reads : ∀ bindings, target.bindings? lhs = some bindings → Reads bindings lhs rhs)
    (uncaptured : ∀ bindings, target.bindings? lhs = some bindings → ¬bindings.HasMarker) :
    (settle target (passes + 3) lhs rhs).Ends IsOperand Fault.IsStep := by
  have steps (cause : StepFault) : (Fault.step cause).IsStep := ⟨cause, rfl⟩
  have strays (bindings : Bindings) (found : target.bindings? lhs = some bindings)
      (captured : bindings.HasMarker) : (Fault.shape .strayMarker).IsStep :=
    absurd captured (uncaptured bindings found)
  by_cases closed : lhs.Closes
  · exact settle_ends_of_closes targetShaped left right (passes + 1) closed steps reads strays
  · have plain : target.Plain := ⟨targetShaped, closes.resolve_right closed⟩
    have variadic : ¬lhs.MarkerFree := fun free => closed (Or.inl free)
    refine settle_pass_ends targetShaped left right steps
      (fun bindings found => (reads bindings found).counts) strays ?_
    intro bindings groundLhs groundRhs found builtLhs builtRhs leftGround rightGround
    -- The first pass has expanded both sides, so the second one closes.
    obtain ⟨count, counted⟩ := exists_counted targetShaped left.1 left.2 found
    have known := (reads bindings found).resolve_left fun free => variadic free.1
    have arity := counted.arity_eq variadic known.readable
    have leftFree := markerFree_of_instantiate plain found arity left builtLhs
    have rightFree := markerFree_of_instantiate plain found arity right builtRhs
    exact settle_ends_of_closes targetShaped leftGround rightGround passes (Or.inl leftFree) steps
      (fun _ _ => Or.inl ⟨leftFree, rightFree⟩)
      fun _ again captured => absurd captured (not_hasMarker_of_plain plain again)

end

section

variable {e premise conclusion : Expr}

theorem infer_ends (shaped : e.WellShaped) (left : premise.IsOperand) (right : conclusion.IsOperand)
    {Q : Fault → Prop} (steps : ∀ cause, Q (.step cause))
    (counts : ∀ bindings, e.bindings? premise = some bindings →
      premise.MarkerFree ∧ conclusion.MarkerFree ∨ ∀ fault, bindings.Miscounts fault → Q fault)
    (strays : ∀ bindings, e.bindings? premise = some bindings →
      bindings.HasMarker → Q (.shape .strayMarker)) :
    (e.infer (implication premise conclusion)).Ends IsOperand Q := by
  rw [infer]
  simp only [implicationSides?, implication]
  split
  · cases found : e.bindings? premise with
    | none =>
        rw [matchHere_of_none found]
        exact steps _
    | some bindings =>
        rw [matchHere_of_found found]
        refine grounded_ends (values_wellShaped shaped found) left right (counts bindings found) "=>"
          (strays bindings found) ?_
        intro groundPremise groundConclusion _ _ _ rightGround
        split
        · exact rightGround
        · exact steps _
  · split
    · exact right
    · exact steps _

end

end Expr

end Stepwise
