import Stepwise.Proofs.Matching.Exact

/-!
Properties of bound values. What a match binds are parts of the subject and numerals, so a property
that passes from a tree to its children, and that numerals have, holds of all bound values.
-/

namespace Stepwise

namespace Bindings

def AllValues (P : Expr → Prop) (bindings : Bindings) : Prop :=
  ∀ name value, bindings.find? name = some value → P value

theorem allValues_nil (P : Expr → Prop) : AllValues P [] := by
  intro name value found
  simp [Table.find?] at found

theorem AllValues.extend? {P : Expr → Prop} {name : String} {value : Expr}
    {bindings extended : Bindings} (values : bindings.AllValues P) (holds : P value)
    (bound : bindings.extend? name value = some extended) : extended.AllValues P := by
  rcases extend?_cases bound with ⟨_, rfl⟩ | ⟨_, rfl⟩
  · exact values
  · intro other known found
    rw [Table.find?_append] at found
    cases inOld : bindings.find? other with
    | some old =>
        rw [inOld, Option.some_or, Option.some.injEq] at found
        exact found ▸ values other old inOld
    | none =>
        rw [inOld, Option.none_or] at found
        split at found
        · exact (Option.some.inj found) ▸ holds
        · simp at found

theorem AllValues.toSubst {P : Expr → Prop} {bindings : Bindings} (values : bindings.AllValues P)
    {name : String} (leaf : P (.var name)) : P (bindings.toSubst name) := by
  unfold Bindings.toSubst
  cases found : bindings.find? name with
  | none => exact leaf
  | some value => exact values name value found

end Bindings

namespace Expr

section

variable {P : Expr → Prop}
  (hereditary : ∀ kind symbol children, P (node kind symbol children) → ∀ child ∈ children, P child)
  (numerals : ∀ count : Nat, P (const (toString count)))

include hereditary numerals

theorem matchNode_values (shared : List String) (subject : Expr) (holds : P subject) :
    ∀ pattern bindings extended, matchNode shared pattern bindings subject = some extended →
      bindings.AllValues P → extended.AllValues P := by
  induction subject using Expr.induction with
  | node kind symbol children each =>
      intro pattern bindings extended found values
      have inner : ∀ child ∈ children, ∀ part bindings extended,
          matchNode shared part bindings child = some extended →
            bindings.AllValues P → extended.AllValues P :=
        fun child member => each child member (hereditary _ _ _ holds child member)
      have inList := matchEach_threads (fun _ values => values)
        (fun _ _ _ left right values => right (left values)) shared children inner
      rcases matchNode_cases found with ⟨name, parts, _, bound⟩ | ⟨parts, _, _, rfl⟩ |
        ⟨mark, template, counted, _, _, count, inside⟩ | ⟨patterns, _, _, _, _, _, inside⟩
      · exact values.extend? holds bound
      · exact values
      · exact inList _ counted extended inside (values.extend? (numerals _) count)
      · exact inList _ bindings extended inside values

theorem bindings?_values {subject pattern : Expr} (holds : P subject) {bindings : Bindings}
    (found : subject.bindings? pattern = some bindings) : bindings.AllValues P :=
  matchNode_values hereditary numerals pattern.fixedVariables subject holds pattern [] bindings
    found (Bindings.allValues_nil P)

end

def Plain (e : Expr) : Prop := e.WellShaped ∧ e.MarkerFree

instance (e : Expr) : Decidable e.Plain := inferInstanceAs (Decidable (_ ∧ _))

theorem plain_var (name : String) : (var name).Plain := by
  simp [Plain, var, wellShaped_node, markerFree_node, shapeFault?, countFault?]

theorem plain_const (symbol : String) : (const symbol).Plain := by
  simp [Plain, const, wellShaped_node, markerFree_node, shapeFault?, countFault?]

theorem values_wellShaped {subject pattern : Expr} (shaped : subject.WellShaped)
    {bindings : Bindings} (found : subject.bindings? pattern = some bindings) :
    bindings.AllValues WellShaped :=
  bindings?_values (fun _ _ _ holds _ member => holds.child member) (fun _ => (plain_const _).1)
    shaped found

theorem Plain.child {kind : Kind} {symbol : String} {children : List Expr}
    (plain : (node kind symbol children).Plain) {child : Expr} (member : child ∈ children) :
    child.Plain :=
  ⟨plain.1.child member, ((markerFree_node _ _ _).mp plain.2).2 child member⟩

theorem plain_toSubst {subject pattern : Expr} (plain : subject.Plain) {bindings : Bindings}
    (found : subject.bindings? pattern = some bindings) (name : String) :
    (bindings.toSubst name).Plain := by
  have values := bindings?_values (fun _ _ _ holds _ member => holds.child member)
    (fun count => plain_const _) plain found
  exact values.toSubst (plain_var name)

end Expr

end Stepwise
