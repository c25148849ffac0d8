import Stepwise.NormalForm
import Stepwise.Proofs.Matching.Values

/-!
Formed trees: every node has as many children as its kind admits, and its kind and symbol are
allowed. Where markers are not allowed, a formed tree is plain. Substitution, expansion and
transformations that keep single nodes formed keep whole trees formed.
-/

namespace Stepwise.Expr

def Formed (allowed : Kind → String → Bool) (e : Expr) : Prop :=
  e.allNodes (fun kind symbol children =>
    countFault? kind children.length = none ∧ allowed kind symbol = true) = true

instance (allowed : Kind → String → Bool) (e : Expr) : Decidable (e.Formed allowed) :=
  inferInstanceAs (Decidable (_ = true))

def trainsOver (ops : List String) (kind : Kind) (symbol : String) : Bool :=
  kind ≠ .train || symbol ∈ ops

section

variable {allowed : Kind → String → Bool}

theorem formed_node (kind : Kind) (symbol : String) (children : List Expr) :
    (node kind symbol children).Formed allowed ↔
      (countFault? kind children.length = none ∧ allowed kind symbol = true) ∧
        ∀ child ∈ children, child.Formed allowed := by
  rw [Formed, allNodes_node, decide_eq_true_iff]
  rfl

theorem Formed.child {kind : Kind} {symbol : String} {children : List Expr}
    (formed : (node kind symbol children).Formed allowed) {child : Expr}
    (member : child ∈ children) : child.Formed allowed :=
  ((formed_node _ _ _).mp formed).2 child member

theorem Formed.withChildren {kind : Kind} {symbol : String} {children others : List Expr}
    (formed : (node kind symbol children).Formed allowed)
    (lengths : others.length = children.length) (each : ∀ other ∈ others, other.Formed allowed) :
    (node kind symbol others).Formed allowed := by
  rw [formed_node, lengths]
  exact ⟨((formed_node _ _ _).mp formed).1, each⟩

theorem Formed.markerFree (noMarkers : ∀ symbol, allowed .variadic symbol = false) {e : Expr}
    (formed : e.Formed allowed) : e.MarkerFree := by
  induction e using Expr.induction with
  | node kind symbol children each =>
      rw [markerFree_node]
      refine ⟨?_, fun child member => each child member (formed.child member)⟩
      rintro rfl
      have here := ((formed_node _ _ _).mp formed).1.2
      rw [noMarkers] at here
      exact Bool.false_ne_true here

theorem Formed.plain (noMarkers : ∀ symbol, allowed .variadic symbol = false) {e : Expr}
    (formed : e.Formed allowed) : e.Plain := by
  refine ⟨?_, formed.markerFree noMarkers⟩
  induction e using Expr.induction with
  | node kind symbol children each =>
      rw [wellShaped_node, shapeFault?_eq_none_iff]
      obtain ⟨⟨count, _⟩, inner⟩ := (formed_node _ _ _).mp formed
      refine ⟨⟨count, ?_⟩, fun child member => each child member (inner child member)⟩
      intro child member marks
      simp [((inner child member).markerFree noMarkers).isMarker_eq_false] at marks

theorem WellShaped.formed {test : Kind → String → List Expr → Bool} {e : Expr}
    (shaped : e.WellShaped) (holds : e.allNodes test = true)
    (within : ∀ kind symbol children, test kind symbol children = true →
      allowed kind symbol = true) : e.Formed allowed := by
  induction e using Expr.induction with
  | node kind symbol children each =>
      obtain ⟨here, inner⟩ := (allNodes_node _ _ _ _).mp holds
      have fits := ((wellShaped_node _ _ _).mp shaped).1
      rw [formed_node]
      exact ⟨⟨((shapeFault?_eq_none_iff _ _).mp fits).1, within _ _ _ here⟩,
        fun child member => each child member (shaped.child member) (inner child member)⟩

def plainNodes (kind : Kind) (_ : String) : Bool := kind ≠ .variadic

theorem formed_iff_plain (e : Expr) : e.Formed plainNodes ↔ e.Plain :=
  ⟨Formed.plain fun _ => rfl, fun plain => plain.1.formed plain.2 fun _ _ _ here => here⟩

theorem Formed.of_markerFree {others : Kind → String → Bool}
    (within : ∀ kind symbol, kind ≠ .variadic → allowed kind symbol = true →
      others kind symbol = true) {e : Expr} (formed : e.Formed allowed) (free : e.MarkerFree) :
    e.Formed others := by
  induction e using Expr.induction with
  | node kind symbol children each =>
      obtain ⟨⟨count, here⟩, inner⟩ := (formed_node _ _ _).mp formed
      obtain ⟨notMarker, freeInner⟩ := (markerFree_node _ _ _).mp free
      rw [formed_node]
      exact ⟨⟨count, within kind symbol notMarker here⟩,
        fun child member => each child member (inner child member) (freeInner child member)⟩

theorem formed_of_build {kind : Kind} {symbol : String} {children : List Expr} {e : Expr}
    (built : build kind symbol children = .ok e) (here : allowed kind symbol = true)
    (each : ∀ child ∈ children, child.Formed allowed) : e.Formed allowed := by
  unfold build at built
  split at built
  · simp at built
  · rename_i fits
    obtain rfl := Except.ok.inj built
    rw [formed_node]
    exact ⟨⟨((shapeFault?_eq_none_iff _ _).mp fits).1, here⟩, each⟩

theorem Formed.subst {e : Expr} (formed : e.Formed allowed) {σ : String → Expr}
    (values : ∀ name, (σ name).Formed allowed) : (e.subst σ).Formed allowed := by
  induction e using Expr.induction with
  | node kind symbol children each =>
      by_cases isVar : kind = .var
      · subst isVar
        rw [subst_var]
        exact values symbol
      · rw [subst_node _ _ _ _ isVar]
        refine formed.withChildren (List.length_map _) ?_
        simp only [List.mem_map]
        rintro _ ⟨child, member, rfl⟩
        exact each child member (formed.child member)

theorem Formed.rename (leaves : ∀ symbol, allowed .var symbol = true) {e : Expr}
    (formed : e.Formed allowed) (names : String → String) : (e.rename names).Formed allowed := by
  induction e using Expr.induction with
  | node kind symbol children each =>
      by_cases isVar : kind = .var
      · subst isVar
        rw [rename_var, formed_node]
        obtain ⟨⟨count, _⟩, inner⟩ := (formed_node _ _ _).mp formed
        exact ⟨⟨count, leaves _⟩, inner⟩
      · rw [rename_node _ _ _ _ isVar]
        refine formed.withChildren (List.length_map _) ?_
        simp only [List.mem_map]
        rintro _ ⟨child, member, rfl⟩
        exact each child member (formed.child member)

theorem Formed.expandAll (leaves : ∀ symbol, allowed .var symbol = true) {e : Expr}
    (formed : e.Formed allowed) (shared : List String) {count : Nat} (positive : 1 ≤ count) :
    (e.expandAll shared count).Formed allowed := by
  induction e using templateInduction with
  | var symbol children => simpa using formed
  | variadicTrain symbol mark template =>
      rw [expandAll_variadicTrain, formed_node]
      have nonempty : count ≠ 0 := by omega
      refine ⟨⟨by simp [countFault?, nonempty], ((formed_node _ _ _).mp formed).1.2⟩, ?_⟩
      intro part member
      obtain ⟨index, _, rfl⟩ := (mem_copies _ _ _ _).mp member
      have inside := (formed.child (List.mem_singleton_self _)).child (List.mem_singleton_self _)
      exact inside.rename leaves _
  | other kind symbol children notVar plain each =>
      rw [expandAll_node _ _ _ _ _ notVar plain]
      refine formed.withChildren (List.length_map _) ?_
      simp only [List.mem_map]
      rintro _ ⟨child, member, rfl⟩
      exact each child member (formed.child member)

theorem Plain.subst {e : Expr} (plain : e.Plain) {σ : String → Expr}
    (values : ∀ name, (σ name).Plain) : (e.subst σ).Plain := by
  rw [← formed_iff_plain] at plain ⊢
  exact Formed.subst plain fun name => (formed_iff_plain _).mpr (values name)

theorem Formed.bottomUp {step : Expr → Expr}
    (keeps : ∀ e : Expr, e.Formed allowed → (step e).Formed allowed) {e : Expr}
    (formed : e.Formed allowed) : (bottomUp step e).Formed allowed := by
  induction e using Expr.induction with
  | node kind symbol children each =>
      rw [bottomUp_node]
      apply keeps
      refine formed.withChildren (List.length_map _) ?_
      simp only [List.mem_map]
      rintro _ ⟨child, member, rfl⟩
      exact each child member (formed.child member)

end

end Stepwise.Expr
