import Stepwise.Proofs.Deduction.Settling
import Stepwise.Proofs.Expr.Grafting
import Stepwise.Proofs.NormalForm.Loose

/-!
Regular trees: well shaped, with trains only of the given operators, and without a variable that
takes the name under which a match records the number of copies; and every group passes a test.
Tidy trees have two operands or more in every group and no trains of two terms. What a part of a
tidy tree is replaced by decides which test the whole passes; in normal form it is tidy again.
-/

namespace Stepwise

/-- The operators that have trains are binary ones, subtraction is none of them, and nothing is
simplified. -/
structure Context.IsAlgebraic (ctx : Context) : Prop where
  trains : ctx.assocOps ⊆ ctx.binaryOps
  subtraction : "-" ∉ ctx.assocOps
  quiet : Expr.simplifyFlag ∉ ctx.flags

theorem Context.isAlgebraic_arithmetic (parameters : List String) :
    (arithmetic parameters).IsAlgebraic where
  trains := by simp [arithmetic]
  subtraction := by simp [arithmetic]
  quiet := by simp [arithmetic]

namespace Expr

def regularNodes (ops : List String) (kind : Kind) (symbol : String) : Bool :=
  trainsOver ops kind symbol && !(kind = .var && symbol = ellipsis)

structure Regular (ops : List String) (test : String → List Expr → Bool) (e : Expr) : Prop where
  shaped : e.WellShaped
  formed : e.Formed (regularNodes ops)
  groups : e.Groups test

structure Tidy (ops : List String) (e : Expr) : Prop extends Regular ops several e where
  unpaired : e.TrainLengths (· ≠ 2)

instance (ops : List String) (test : String → List Expr → Bool) (e : Expr) :
    Decidable (e.Regular ops test) :=
  decidable_of_iff (e.WellShaped ∧ e.Formed (regularNodes ops) ∧ e.Groups test)
    ⟨fun ⟨shaped, formed, groups⟩ => ⟨shaped, formed, groups⟩,
      fun regular => ⟨regular.shaped, regular.formed, regular.groups⟩⟩

section

variable {ops : List String} {test : String → List Expr → Bool}

theorem regularNodes_of_ne {kind : Kind} (notTrain : kind ≠ .train) (notVar : kind ≠ .var)
    (symbol : String) : regularNodes ops kind symbol = true := by
  simp [regularNodes, trainsOver, notTrain, notVar]

theorem regularNodes_train {symbol : String} :
    regularNodes ops .train symbol = true ↔ symbol ∈ ops := by
  simp [regularNodes, trainsOver]

theorem trainsOver_of_regularNodes (kind : Kind) (symbol : String)
    (regular : regularNodes ops kind symbol = true) : trainsOver ops kind symbol = true :=
  (Bool.and_eq_true _ _ ▸ regular).1

theorem regular_const (symbol : String) : (const symbol).Regular ops test where
  shaped := (plain_const symbol).1
  formed := by
    rw [const, formed_node]
    exact ⟨⟨rfl, regularNodes_of_ne (by decide) (by decide) symbol⟩, by simp⟩
  groups := groups_of_not_group (by decide) (by simp)

theorem regular_var {name : String} (other : name ≠ ellipsis) : (var name).Regular ops test where
  shaped := (plain_var name).1
  formed := by
    rw [var, formed_node]
    exact ⟨⟨rfl, by simp [regularNodes, trainsOver, other]⟩, by simp⟩
  groups := groups_of_not_group (by decide) (by simp)

theorem regular_node {kind : Kind} {symbol : String} {children : List Expr}
    (count : countFault? kind children.length = none) (known : regularNodes ops kind symbol = true)
    (holds : kind = .binary ∨ kind = .train → test symbol children = true)
    (each : ∀ child ∈ children, child.Regular ops test ∧ child.isMarker = false) :
    (node kind symbol children).Regular ops test where
  shaped := (wellShaped_iff_of_plain (template?_of_no_marker fun child member =>
    (each child member).2)).mpr ⟨count, fun child member => ⟨(each child member).1.shaped,
      (each child member).2⟩⟩
  formed := (formed_node _ _ _).mpr ⟨⟨count, known⟩, fun child member => (each child member).1.formed⟩
  groups := (groups_iff _).mpr ⟨fun isGroup => holds ((isGroupOf_iff _ _ _ _).mp isGroup).1,
    fun child member => (each child member).1.groups⟩

theorem Regular.child {kind : Kind} {symbol : String} {children : List Expr}
    (regular : (node kind symbol children).Regular ops test) {child : Expr}
    (member : child ∈ children) : child.Regular ops test :=
  ⟨regular.shaped.child member, regular.formed.child member, regular.groups.child member⟩

theorem Formed.unnamed {e : Expr} (formed : e.Formed (regularNodes ops)) : e.Unnamed := by
  induction e using Expr.induction with
  | node kind symbol children each =>
      obtain ⟨⟨_, known⟩, inner⟩ := (formed_node _ _ _).mp formed
      by_cases isVar : kind = .var
      · subst isVar
        have other : symbol ≠ ellipsis := by
          rintro rfl
          simp [regularNodes] at known
        simpa [Unnamed] using other.symm
      · rw [Unnamed, occurrences_node _ _ _ _ isVar]
        simp only [Bool.false_and, Bool.false_eq_true, if_false, List.mem_flatMap, not_exists,
          not_and]
        exact fun child member => each child member (inner child member)

theorem Groups.of_several (enough : ∀ symbol operands, 2 ≤ operands.length →
    test symbol operands = true) {e : Expr} (groups : e.Groups several) : e.Groups test := by
  induction e using Expr.induction with
  | node kind symbol children each =>
      refine (groups_iff _).mpr ⟨fun isGroup => ?_,
        fun child member => each child member (groups.child member)⟩
      exact enough _ _ (of_decide_eq_true (groups.here isGroup))

theorem Regular.of_several (enough : ∀ symbol operands, 2 ≤ operands.length →
    test symbol operands = true) {e : Expr} (regular : e.Regular ops several) :
    e.Regular ops test :=
  ⟨regular.shaped, regular.formed, regular.groups.of_several enough⟩

theorem TrainLengths.child {admits : Nat → Prop} [DecidablePred admits] {kind : Kind}
    {symbol : String} {children : List Expr}
    (lengths : (node kind symbol children).TrainLengths admits) {child : Expr}
    (member : child ∈ children) : child.TrainLengths admits :=
  ((trainLengths_node _ _ _ _).mp lengths).2 child member

theorem Groups.nodeAt {e target : Expr} {path : List Int} (groups : e.Groups test)
    (reached : e.nodeAt path = .ok target) : target.Groups test := by
  induction path generalizing e with
  | nil => exact Except.ok.inj reached ▸ groups
  | cons index path ih =>
      obtain ⟨child, known, below⟩ := nodeAt_cons.mp reached
      obtain ⟨before, after, parts, _⟩ := childAt?_cases known
      exact ih (groups.child (by simp [parts])) below

theorem Regular.resolve {e target : Expr} {address : Address} (regular : e.Regular ops several)
    (resolved : e.resolve address = .ok target) : target.Regular ops several where
  shaped := by
    obtain ⟨path, pair⟩ := address
    exact regular.shaped.resolve resolved
  formed := regular.formed.resolve (fun _ => regularNodes_of_ne (by decide) (by decide) _) resolved
  groups := by
    obtain ⟨inner, reached, selected⟩ := Attempt.bind_eq_ok.mp resolved
    have groups := regular.groups.nodeAt reached
    split at selected
    · exact Except.ok.inj selected ▸ groups
    · obtain ⟨symbol, before, left, right, after, rfl, rfl, _⟩ := pairAt_cases selected
      exact groups_two rfl (groups.child (by simp)) (groups.child (by simp))

theorem isMarker_of_replace {e target new result : Expr} {path : List Int} {pair : Option Int}
    (resolved : e.resolve ⟨path, pair⟩ = .ok target) (targetOperand : target.isMarker = false)
    (newOperand : new.isMarker = false) (replaced : e.replace new ⟨path, pair⟩ = .ok result) :
    result.isMarker = e.isMarker := by
  cases path with
  | nil =>
      cases pair with
      | none =>
          obtain rfl := Except.ok.inj resolved
          obtain rfl := Except.ok.inj replaced
          rw [targetOperand, newOperand]
      | some index =>
          obtain ⟨symbol, before, left, right, after, rfl, _, rebuild⟩ := pairAt_cases resolved
          rw [replace_pair, rebuild] at replaced
          rw [eq_of_build replaced]
          rfl
  | cons index path =>
      obtain ⟨child, known, inner, below, rebuilt⟩ := replace_cons.mp replaced
      rw [eq_of_build rebuilt]
      rfl

theorem isGroupOf_graft {kind : Kind} {symbol : String} {before after : List Expr}
    {child inner : Expr} (shaped : (node kind symbol (before ++ child :: after)).WellShaped)
    (graftShaped : (node kind symbol (before ++ inner :: after)).WellShaped)
    (same : inner.isMarker = child.isMarker) (name : String) :
    (node kind symbol (before ++ inner :: after)).isGroupOf name =
      (node kind symbol (before ++ child :: after)).isGroupOf name := by
  have variadic : (node kind symbol (before ++ inner :: after)).isVariadicTrain =
      (node kind symbol (before ++ child :: after)).isVariadicTrain := by
    rw [Bool.eq_iff_iff, graftShaped.isVariadicTrain_iff, shaped.isVariadicTrain_iff]
    simp [or_and_right, exists_or, same]
  unfold isGroupOf
  rw [variadic]
  rfl

theorem Groups.replace {new : Expr} (newGroups : new.Groups test)
    (enough : ∀ symbol operands, 2 ≤ operands.length → test symbol operands = true)
    (operand : new.IsOperand) {e target result : Expr} (targetOperand : target.isMarker = false)
    {path : List Int} {pair : Option Int} (regular : e.Regular ops several)
    (fits : pair = none ∨ e.TrainLengths (· ≠ 2)) (resolved : e.resolve ⟨path, pair⟩ = .ok target)
    (replaced : e.replace new ⟨path, pair⟩ = .ok result) : result.Groups test := by
  induction path generalizing e result with
  | nil =>
      cases pair with
      | none => exact Except.ok.inj replaced ▸ newGroups
      | some index =>
          obtain ⟨symbol, before, left, right, after, rfl, _, rebuild⟩ := pairAt_cases resolved
          rw [replace_pair, rebuild] at replaced
          obtain rfl := eq_of_build replaced
          have others := regular.groups.of_several enough
          refine (groups_iff _).mpr ⟨fun _ => enough _ _ ?_, ?_⟩
          -- The train had three terms or more, so two are left.
          · have longer := ((trainLengths_node _ _ _ _).mp (fits.resolve_left (by simp))).1 rfl
            simp only [List.length_append, List.length_cons, children_node] at longer ⊢
            omega
          · exact List.forall_mem_append.mpr ⟨fun child before => others.child (by simp [before]),
              List.forall_mem_cons.mpr ⟨newGroups, fun child after => others.child (by simp [after])⟩⟩
  | cons index path ih =>
      obtain ⟨child, known, inner, below, rebuilt⟩ := replace_cons.mp replaced
      obtain ⟨other, same, found⟩ := resolve_cons.mp resolved
      obtain rfl := Option.some.inj (known.symm.trans same)
      have shaped := regular.shaped.replace operand.1 replaced
      have marks := isMarker_of_replace found targetOperand operand.2 below
      obtain ⟨before, after, parts, moved⟩ := childAt?_cases known
      obtain ⟨kind, symbol, children⟩ := e
      rw [children_node] at parts
      subst parts
      rw [moved] at rebuilt
      have whole : result = node kind symbol (before ++ inner :: after) := eq_of_build rebuilt
      subst whole
      have innerGroups := ih (regular.child (by simp))
        (fits.imp_right fun lengths => lengths.child (by simp)) found below
      refine (groups_iff _).mpr ⟨fun isGroup => enough _ _ ?_, ?_⟩
      · rw [isGroupOf_graft regular.shaped shaped marks] at isGroup
        simpa [several] using regular.groups.here isGroup
      · have others := regular.groups.of_several enough
        exact List.forall_mem_append.mpr ⟨fun child before => others.child (by simp [before]),
          List.forall_mem_cons.mpr ⟨innerGroups, fun child after => others.child (by simp [after])⟩⟩

theorem Regular.replace {new : Expr} (newRegular : new.Regular ops test)
    (enough : ∀ symbol operands, 2 ≤ operands.length → test symbol operands = true)
    (newOperand : new.isMarker = false) {e target result : Expr}
    (targetOperand : target.isMarker = false) {path : List Int} {pair : Option Int}
    (regular : e.Regular ops several) (fits : pair = none ∨ e.TrainLengths (· ≠ 2))
    (resolved : e.resolve ⟨path, pair⟩ = .ok target)
    (replaced : e.replace new ⟨path, pair⟩ = .ok result) : result.Regular ops test where
  shaped := regular.shaped.replace newRegular.shaped replaced
  formed := newRegular.formed.replace regular.formed ⟨target, resolved⟩ replaced
  groups := newRegular.groups.replace enough ⟨newRegular.shaped, newOperand⟩ targetOperand
    regular fits resolved replaced

end

section

variable {ops : List String} {e : Expr}

theorem Regular.flatten (regular : e.Regular ops several) : (e.flatten ops).Regular ops several where
  shaped := ((isPass_flattenNode ops).bottomUp regular.shaped).1
  formed := regular.formed.bottomUp fun _ =>
    (isFormation_formed _).flattenNode fun _ known => regularNodes_train.mpr known
  groups := flatten_several regular.shaped regular.groups

theorem Regular.shorten (regular : e.Regular ops several) (binaries : List String) :
    (e.shorten binaries).Regular ops several where
  shaped := ((isPass_shortenNode binaries).bottomUp regular.shaped).1
  formed := regular.formed.bottomUp fun _ =>
    (isFormation_formed _).shortenNode fun _ _ _ => regularNodes_of_ne (by decide) (by decide) _
  groups := shorten_several regular.shaped regular.groups

theorem unpaired_of_short {binaries : List String} (known : ops ⊆ binaries)
    (formed : e.Formed (regularNodes ops)) (short : e.Short binaries) :
    e.TrainLengths (· ≠ 2) := by
  induction e using Expr.induction with
  | node kind symbol children each =>
      obtain ⟨⟨_, isRegular⟩, inner⟩ := (formed_node _ _ _).mp formed
      obtain ⟨here, below⟩ := (short_node _ _ _ _).mp short
      refine (trainLengths_node _ _ _ _).mpr
        ⟨?_, fun child member => each child member (inner child member) (below child member)⟩
      rintro rfl
      exact here rfl (known (regularNodes_train.mp isRegular))

end

theorem Regular.normalize {ctx : Context} (algebraic : ctx.IsAlgebraic) {e : Expr}
    (regular : e.Regular ctx.assocOps loose) :
    (normalize ctx e).Tidy ctx.assocOps ∧ normalize ctx (normalize ctx e) = normalize ctx e := by
  have formation := isFormation_formed (regularNodes ctx.assocOps)
  have regrouped {e : Expr} (formed : e.Formed (regularNodes ctx.assocOps)) :
      (regroup ctx e).Formed (regularNodes ctx.assocOps) :=
    formed.regroup (fun _ => regularNodes_of_ne (by decide) (by decide) _)
      (fun _ known => regularNodes_train.mpr known)
      (fun _ _ _ => regularNodes_of_ne (by decide) (by decide) _)
  have formed : (Expr.normalize ctx e).Formed (regularNodes ctx.assocOps) := by
    unfold Expr.normalize
    split
    · have negated : (subToNegative .usual e).Formed (regularNodes ctx.assocOps) :=
        regular.formed.bottomUp fun _ => formation.subToNegativeNode
          (regularNodes_of_ne (by decide) (by decide) _)
          (regularNodes_of_ne (by decide) (by decide) _)
      exact (regrouped negated).bottomUp fun _ =>
        formation.negativeToSubNode (regularNodes_of_ne (by decide) (by decide) _)
    · exact regrouped regular.formed
  have shaped := normalize_wellShaped ctx regular.shaped
  have overTrains : e.Formed (trainsOver ctx.assocOps) :=
    regular.shaped.formed regular.formed fun kind symbol _ here =>
      trainsOver_of_regularNodes kind symbol (of_decide_eq_true here).2
  obtain ⟨groups, short⟩ := normalize_grouped algebraic.quiet regular.shaped regular.groups
  exact ⟨⟨⟨shaped, formed, groups⟩, unpaired_of_short algebraic.trains formed short⟩,
    normalize_normalize algebraic.subtraction algebraic.quiet regular.shaped overTrains
      regular.groups⟩

end Expr

end Stepwise
