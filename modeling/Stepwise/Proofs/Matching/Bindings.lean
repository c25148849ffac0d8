import Stepwise.Matching.Basic

/-!
Bindings as partial substitutions. Binding one more name succeeds under a substitution exactly
when the substitution has the value for the name, and it appends the name unless it is known.
-/

namespace Stepwise

namespace Table

variable {α : Type}

theorem find?_append (t : Table α) (key name : String) (value : α) :
    Table.find? name (t ++ [(key, value)]) =
      (t.find? name).or (if key = name then some value else none) := by
  induction t with
  | nil => simp [find?]
  | cons pair rest ih =>
      simp only [List.cons_append, find?]
      split
      · rfl
      · exact ih

theorem find?_eq_none_iff (t : Table α) (name : String) : t.find? name = none ↔ name ∉ t.keys := by
  induction t with
  | nil => simp [find?, keys]
  | cons pair rest ih =>
      simp only [find?, keys, List.map_cons, List.mem_cons, not_or] at ih ⊢
      split
      next same => simp [same]
      next other => simp [ih, Ne.symm other]

theorem mem_keys_iff (t : Table α) (name : String) :
    name ∈ t.keys ↔ ∃ value, t.find? name = some value := by
  rw [← Option.isSome_iff_exists, Option.isSome_iff_ne_none, ne_eq, find?_eq_none_iff,
    Classical.not_not]

end Table

namespace Bindings

def AgreesWith (bindings : Bindings) (σ : String → Expr) : Prop :=
  ∀ name value, bindings.find? name = some value → σ name = value

def IsPartOf (part whole : Bindings) : Prop :=
  ∀ name value, part.find? name = some value → whole.find? name = some value

/-- The substitution of the bound values; a name that is not bound stays a variable. -/
def toSubst (bindings : Bindings) (name : String) : Expr :=
  (bindings.find? name).getD (.var name)

theorem agreesWith_nil (σ : String → Expr) : AgreesWith [] σ := by
  intro name value found
  simp [Table.find?] at found

theorem agreesWith_toSubst (bindings : Bindings) : bindings.AgreesWith bindings.toSubst := by
  intro name value found
  simp [toSubst, found]

theorem IsPartOf.refl (bindings : Bindings) : bindings.IsPartOf bindings := fun _ _ found => found

theorem IsPartOf.trans {first second third : Bindings} (left : first.IsPartOf second)
    (right : second.IsPartOf third) : first.IsPartOf third :=
  fun name value found => right name value (left name value found)

theorem AgreesWith.of_isPartOf {part whole : Bindings} {σ : String → Expr}
    (agrees : whole.AgreesWith σ) (within : part.IsPartOf whole) : part.AgreesWith σ :=
  fun name value found => agrees name value (within name value found)

theorem extend?_cases {name : String} {value : Expr} {bindings extended : Bindings}
    (bound : bindings.extend? name value = some extended) :
    (bindings.find? name = some value ∧ extended = bindings) ∨
      (bindings.find? name = none ∧ extended = bindings ++ [(name, value)]) := by
  unfold extend? at bound
  split at bound
  · rename_i known found
    split at bound
    · rename_i same
      simp only [Option.some.injEq] at bound
      exact Or.inl ⟨same ▸ found, bound.symm⟩
    · simp at bound
  · rename_i absent
    simp only [Option.some.injEq] at bound
    exact Or.inr ⟨absent, bound.symm⟩

theorem find?_of_extend? {name : String} {value : Expr} {bindings extended : Bindings}
    (bound : bindings.extend? name value = some extended) : extended.find? name = some value := by
  rcases extend?_cases bound with ⟨found, rfl⟩ | ⟨absent, rfl⟩
  · exact found
  · simp [Table.find?_append, absent]

theorem isPartOf_of_extend? {name : String} {value : Expr} {bindings extended : Bindings}
    (bound : bindings.extend? name value = some extended) : bindings.IsPartOf extended := by
  rcases extend?_cases bound with ⟨_, rfl⟩ | ⟨_, rfl⟩
  · exact IsPartOf.refl _
  · intro other known found
    simp [Table.find?_append, found]

theorem keys_of_extend? {name : String} {value : Expr} {bindings extended : Bindings}
    (bound : bindings.extend? name value = some extended) :
    extended.keys = OrderedSet.insert bindings.keys name := by
  rcases extend?_cases bound with ⟨found, rfl⟩ | ⟨absent, rfl⟩
  · have member := (Table.mem_keys_iff _ name).mpr ⟨value, found⟩
    rw [OrderedSet.insert, if_pos member]
  · rw [OrderedSet.insert, if_neg ((Table.find?_eq_none_iff bindings name).mp absent)]
    simp [Table.keys]

theorem extend?_agrees (name : String) (value : Expr) {bindings : Bindings} {σ : String → Expr}
    (agrees : bindings.AgreesWith σ) :
    σ name = value ↔
      ∃ extended, bindings.extend? name value = some extended ∧ extended.AgreesWith σ := by
  constructor
  · rintro rfl
    cases found : bindings.find? name with
    | some known =>
        have same := agrees name known found
        refine ⟨bindings, ?_, agrees⟩
        simp [extend?, found, same]
    | none =>
        refine ⟨bindings ++ [(name, σ name)], by simp [extend?, found], ?_⟩
        intro other known bound
        rw [Table.find?_append] at bound
        cases inOld : bindings.find? other with
        | some old =>
            rw [inOld, Option.some_or, Option.some.injEq] at bound
            exact bound ▸ agrees other old inOld
        | none =>
            rw [inOld, Option.none_or] at bound
            split at bound
            · rename_i same
              simpa [same] using bound
            · simp at bound
  · rintro ⟨extended, bound, agreesExtended⟩
    exact agreesExtended name value (find?_of_extend? bound)

end Bindings

end Stepwise
