import Mathlib.Data.List.Basic

/-!
Left folds that start with the first element of a list. Where the operation is associative, a part
of the list may be folded first.
-/

namespace Stepwise

universe u v

variable {D : Type u}

def leftFold (f : D → D → D) (empty : D) : List D → D
  | [] => empty
  | first :: rest => rest.foldl f first

theorem leftFold_map (f : D → D → D) (empty : D) (g : D → D)
    (through : ∀ x y, g (f x y) = f (g x) (g y)) {values : List D} (nonempty : values ≠ []) :
    leftFold f empty (values.map g) = g (leftFold f empty values) := by
  cases values with
  | nil => exact absurd rfl nonempty
  | cons first rest =>
      induction rest generalizing first with
      | nil => rfl
      | cons second others ih =>
          have joined := ih (f first second) (by simp)
          simp only [List.map_cons, leftFold, List.foldl_cons, through] at joined ⊢
          exact joined

theorem leftFold_eq_foldl {f : D → D → D} (empty : D) {z : D} (neutral : ∀ x, f z x = x)
    {values : List D} (nonempty : values ≠ []) : leftFold f empty values = values.foldl f z := by
  cases values with
  | nil => exact absurd rfl nonempty
  | cons first rest => rw [leftFold, List.foldl_cons, neutral]

theorem foldl_filter {α : Type v} (f : D → D → D) {z : D} (neutral : ∀ x, f x z = x)
    (value : α → D) (keep : α → Bool) {items : List α}
    (dropped : ∀ item ∈ items, keep item = false → value item = z) (x : D) :
    ((items.filter keep).map value).foldl f x = (items.map value).foldl f x := by
  induction items generalizing x with
  | nil => rfl
  | cons item rest ih =>
      have others := ih fun other member => dropped other (by simp [member])
      cases kept : keep item with
      | true => simp [kept, others]
      | false => simp [kept, others, dropped item (by simp) kept, neutral]

theorem foldl_absorbing {f : D → D → D} {z : D} (left : ∀ x, f z x = z) (right : ∀ x, f x z = z)
    {values : List D} (member : z ∈ values) (x : D) : values.foldl f x = z := by
  induction values generalizing x with
  | nil => simp at member
  | cons first rest ih =>
      rw [List.foldl_cons]
      rcases List.mem_cons.mp member with rfl | inRest
      · rw [right]
        exact List.foldl_fixed' left rest
      · exact ih inRest _

section

variable {f : D → D → D} {empty : D} (assoc : ∀ x y z, f (f x y) z = f x (f y z))

include assoc

theorem leftFold_pair (before after : List D) (x y : D) :
    leftFold f empty (before ++ f x y :: after) = leftFold f empty (before ++ x :: y :: after) := by
  cases before with
  | nil => rfl
  | cons first rest => simp [leftFold, List.foldl_append, assoc]

theorem foldl_eq_op_leftFold (x : D) {values : List D} (nonempty : values ≠ []) :
    values.foldl f x = f x (leftFold f empty values) := by
  cases values with
  | nil => exact absurd rfl nonempty
  | cons first rest =>
      induction rest generalizing x first with
      | nil => rfl
      | cons second others ih =>
          have joined := ih x (f first second) (by simp)
          simp only [List.foldl_cons, leftFold] at joined ⊢
          rw [← joined, assoc]

theorem leftFold_append (left right : List D) (leftNonempty : left ≠ []) (nonempty : right ≠ []) :
    leftFold f empty (left ++ right) =
      f (leftFold f empty left) (leftFold f empty right) := by
  cases left with
  | nil => exact absurd rfl leftNonempty
  | cons first rest =>
      rw [List.cons_append, leftFold, List.foldl_append, foldl_eq_op_leftFold assoc _ nonempty]
      rfl

theorem leftFold_flatMap {α : Type v} (values : α → List D) (items : List α)
    (each : ∀ item ∈ items, values item ≠ []) :
    leftFold f empty (items.flatMap values) =
      leftFold f empty (items.map fun item => leftFold f empty (values item)) := by
  induction items with
  | nil => rfl
  | cons item rest ih =>
      have here := each item (by simp)
      have others := ih fun other member => each other (by simp [member])
      cases rest with
      | nil => simp [leftFold]
      | cons second more =>
          have nonempty : (second :: more).flatMap values ≠ [] := by
            intro blank
            exact each second (by simp) (List.append_eq_nil_iff.mp blank).1
          rw [List.flatMap_cons, leftFold_append assoc _ _ here nonempty, others]
          exact (foldl_eq_op_leftFold assoc _ (by simp)).symm

end

end Stepwise
