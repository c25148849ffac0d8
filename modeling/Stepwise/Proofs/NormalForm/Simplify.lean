import Stepwise.NormalForm
import Stepwise.Proofs.NormalForm.Shape

/-!
Simplification of a node: it stays if no operand is trivial, a product with a factor 0 becomes 0,
and otherwise the trivial operands are dropped. With it, all passes are known not to bring in nodes
that may not stand in a tree.
-/

namespace Stepwise.Expr

def isTrivialIn (symbol : String) (e : Expr) : Bool :=
  symbol = "+" && e.isInteger 0 || symbol = "*" && (e.isInteger 0 || e.isInteger 1)

theorem isTrivialIn_of_neutral {symbol : String} {neutral : Int}
    (known : neutral? symbol = some neutral) (e : Expr) :
    e.isTrivialIn symbol = (e.isInteger neutral || symbol = "*" && e.isInteger 0) := by
  unfold neutral? at known
  split at known
  · rename_i isSum
    obtain rfl := Option.some.inj known
    simp [isTrivialIn, isSum]
  · split at known
    · rename_i isProduct
      obtain rfl := Option.some.inj known
      simp [isTrivialIn, isProduct, Bool.or_comm]
    · simp at known

theorem isTrivialIn_of_none {symbol : String} (unknown : neutral? symbol = none) (e : Expr) :
    e.isTrivialIn symbol = false := by
  unfold neutral? at unknown
  split at unknown
  · simp at unknown
  · split at unknown
    · simp at unknown
    · rename_i notSum notProduct
      simp [isTrivialIn, notSum, notProduct]

theorem simplifyNode_cases (e : Expr) :
    (simplifyNode e = e ∧
      (e.isGroupOf e.symbol = true → ∀ child ∈ e.children, child.isTrivialIn e.symbol = false)) ∨
    (e.isGroupOf "*" = true ∧ (∃ child ∈ e.children, child.isInteger 0 = true) ∧
      simplifyNode e = const "0") ∨
    ∃ neutral, e.isGroupOf e.symbol = true ∧ neutral? e.symbol = some neutral ∧
      (e.children.filter fun child => !child.isInteger neutral).length < e.children.length ∧
      (∀ child ∈ e.children.filter (fun child => !child.isInteger neutral),
        child.isTrivialIn e.symbol = false) ∧
      simplifyNode e =
        ofKept e.symbol neutral (e.children.filter fun child => !child.isInteger neutral) := by
  unfold simplifyNode
  split
  · rename_i isGroup
    have group : e.isGroupOf e.symbol = true := by
      simpa [isGroupOf] using isGroup
    split
    · rename_i zero
      simp only [Bool.and_eq_true, decide_eq_true_eq, List.any_eq_true] at zero
      exact Or.inr (Or.inl ⟨zero.1 ▸ group, zero.2, rfl⟩)
    · rename_i noZero
      split
      · rename_i unknown
        exact Or.inl ⟨rfl, fun _ child _ => isTrivialIn_of_none unknown child⟩
      · rename_i neutral known
        have stays (child : Expr) (member : child ∈ e.children)
            (other : child.isInteger neutral = false) : child.isTrivialIn e.symbol = false := by
          rw [isTrivialIn_of_neutral known, other, Bool.false_or, Bool.eq_false_iff]
          intro zero
          simp only [Bool.and_eq_true, decide_eq_true_eq, List.any_eq_true] at zero noZero
          exact noZero ⟨zero.1, child, member, zero.2⟩
        simp only
        split
        · rename_i all
          refine Or.inl ⟨rfl, fun _ child member => stays child member ?_⟩
          simpa using List.length_filter_eq_length_iff.mp all child member
        · rename_i fewer
          have bound := List.length_filter_le (fun child => !child.isInteger neutral) e.children
          refine Or.inr (Or.inr ⟨neutral, group, known, by omega, ?_, rfl⟩)
          intro child member
          obtain ⟨inChildren, other⟩ := List.mem_filter.mp member
          exact stays child inChildren (by simpa using other)
  · rename_i notGroup
    refine Or.inl ⟨rfl, fun group => absurd ?_ notGroup⟩
    simpa [isGroupOf] using group

theorem IsFormation.ofKept {allowed : Kind → String → Bool} {P : Expr → Prop}
    (formation : IsFormation allowed P) {symbol : String} {neutral : Int}
    (constants : ∀ symbol, allowed .const symbol = true) {kept : List Expr}
    (trains : 2 ≤ kept.length → allowed .train symbol = true) (each : ∀ child ∈ kept, P child) :
    P (ofKept symbol neutral kept) := by
  unfold Expr.ofKept
  split
  · exact formation.build (by decide) rfl (constants _) (by simp)
  · exact each _ (by simp)
  · rename_i nonempty notSingle
    refine formation.train (trains ?_) nonempty each
    rcases kept with _ | ⟨first, _ | ⟨second, rest⟩⟩
    · exact absurd rfl nonempty
    · exact absurd rfl (notSingle first)
    · simp

theorem IsFormation.simplifyNode {allowed : Kind → String → Bool} {P : Expr → Prop}
    (formation : IsFormation allowed P) (constants : ∀ symbol, allowed .const symbol = true)
    {e : Expr} (formed : P e) : P (simplifyNode e) := by
  rcases simplifyNode_cases e with ⟨same, _⟩ | ⟨_, _, turned⟩ |
    ⟨neutral, isGroup, _, fewer, _, turned⟩
  · rwa [same]
  · rw [turned]
    exact formation.build (by decide) rfl (constants _) (by simp)
  · obtain ⟨⟨count, known⟩, each⟩ := formation.group formed isGroup
    rw [turned]
    refine formation.ofKept constants (fun enough => ?_) ?_
    · -- Of the two operands of a binary node at most one is kept.
      obtain ⟨kind, symbol, children⟩ := e
      obtain ⟨groups, _, _⟩ := (isGroupOf_iff _ _ _ _).mp isGroup
      rw [children_node] at fewer enough
      rcases groups with rfl | rfl
      · rw [kind_node, children_node] at count
        have two : children.length = 2 := by simpa [countFault?] using count
        omega
      · exact known
    · exact fun child member => each child (List.mem_filter.mp member).1

theorem isPass_simplifyNode : IsPass simplifyNode where
  operand operand := isFormation_operand.simplifyNode (fun _ => rfl) operand
  marker mark children := by simp [simplifyNode]

theorem Formed.regroup {allowed : Kind → String → Bool} {ctx : Context}
    (constants : ∀ symbol, allowed .const symbol = true)
    (trains : ∀ symbol ∈ ctx.assocOps, allowed .train symbol = true)
    (binaries : ∀ symbol ∈ ctx.binaryOps, allowed .train symbol = true →
      allowed .binary symbol = true) {e : Expr} (formed : e.Formed allowed) :
    (regroup ctx e).Formed allowed := by
  have formation := isFormation_formed allowed
  have simplified : (if simplifyFlag ∈ ctx.flags then e.simplify else e).Formed allowed := by
    split
    · exact formed.bottomUp fun _ => formation.simplifyNode constants
    · exact formed
  exact ((simplified.bottomUp fun _ => formation.flattenNode trains).bottomUp
    fun _ => formation.shortenNode binaries).bottomUp fun _ => formation.unwrapNode

theorem regroup_wellShaped (ctx : Context) {e : Expr} (shaped : e.WellShaped) :
    (regroup ctx e).WellShaped := by
  have simplified : (if simplifyFlag ∈ ctx.flags then e.simplify else e).WellShaped := by
    split
    · exact (isPass_simplifyNode.bottomUp shaped).1
    · exact shaped
  have flat := ((isPass_flattenNode ctx.assocOps).bottomUp simplified).1
  have short := ((isPass_shortenNode ctx.binaryOps).bottomUp flat).1
  exact (isPass_unwrapNode.bottomUp short).1

theorem normalize_wellShaped (ctx : Context) {e : Expr} (shaped : e.WellShaped) :
    (normalize ctx e).WellShaped := by
  unfold normalize
  split
  · have negated := ((isPass_subToNegativeNode .usual).bottomUp shaped).1
    exact ((isPass_negativeToSubNode .usual).bottomUp (regroup_wellShaped ctx negated)).1
  · exact regroup_wellShaped ctx shaped

theorem Plain.normalize {e : Expr} (plain : e.Plain) (ctx : Context) :
    (normalize ctx e).Plain := by
  rw [← formed_iff_plain] at plain ⊢
  have formation := isFormation_formed plainNodes
  have regrouped {e : Expr} (formed : e.Formed plainNodes) : (regroup ctx e).Formed plainNodes :=
    formed.regroup (fun _ => rfl) (fun _ _ => rfl) fun _ _ _ => rfl
  unfold Expr.normalize
  split
  · have negated : (subToNegative .usual e).Formed plainNodes :=
      Formed.bottomUp (fun _ => formation.subToNegativeNode rfl rfl) plain
    exact (regrouped negated).bottomUp fun _ => formation.negativeToSubNode rfl
  · exact regrouped plain

end Stepwise.Expr
