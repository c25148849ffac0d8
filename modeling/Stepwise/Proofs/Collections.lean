import Mathlib.Data.List.Basic
import Stepwise.Collections

/-!
What stands at a position given by an integer, and the names of lists without repetition.
-/

namespace Stepwise.Index

variable {α : Type}

theorem get?_natCast (xs : List α) (index : Nat) : get? xs (index : Int) = xs[index]? := by
  unfold get? place?
  rw [if_pos (Int.natCast_nonneg index)]
  by_cases inside : index < xs.length
  · rw [if_pos (by omega)]
    simp
  · rw [if_neg (by omega)]
    exact (List.getElem?_eq_none (by omega)).symm

theorem set?_natCast (xs : List α) (index : Nat) (value : α) :
    set? xs (index : Int) value =
      if index < xs.length then some (xs.set index value) else none := by
  unfold set? place?
  rw [if_pos (Int.natCast_nonneg index)]
  by_cases inside : index < xs.length
  · rw [if_pos (by omega), if_pos inside]
    simp
  · rw [if_neg (by omega), if_neg inside]
    rfl

theorem set?_eq_some {xs changed : List α} {index : Int} {value : α}
    (stored : set? xs index value = some changed) :
    ∃ place, place? xs.length index = some place ∧ changed = xs.set place value := by
  obtain ⟨place, placed, same⟩ := Option.map_eq_some_iff.mp stored
  exact ⟨place, placed, same.symm⟩

theorem mem_of_get? {xs : List α} {index : Int} {x : α} (found : get? xs index = some x) :
    x ∈ xs := by
  unfold get? at found
  split at found
  · exact List.mem_of_getElem? found
  · simp at found

theorem mem_of_forward? {xs : List α} {index : Int} {x : α}
    (found : forward? xs index = some x) : x ∈ xs := by
  unfold forward? at found
  split at found
  · exact List.mem_of_getElem? found
  · simp at found

end Stepwise.Index

namespace Stepwise.OrderedSet

theorem mem_insertAll (names more : List String) (name : String) :
    name ∈ insertAll names more ↔ name ∈ names ∨ name ∈ more := by
  induction more generalizing names with
  | nil => simp [insertAll]
  | cons first rest ih =>
      change name ∈ insertAll (insert names first) rest ↔ _
      rw [ih, mem_insert, List.mem_cons, or_assoc]

theorem insertAll_append (names first second : List String) :
    insertAll names (first ++ second) = insertAll (insertAll names first) second := by
  simp [insertAll, List.foldl_append]

theorem prefix_insert (names : List String) (name : String) : names <+: insert names name := by
  unfold insert
  split
  · exact List.prefix_rfl
  · exact List.prefix_append _ _

theorem prefix_insertAll (names more : List String) : names <+: insertAll names more := by
  induction more generalizing names with
  | nil => exact List.prefix_rfl
  | cons name more ih => exact (prefix_insert names name).trans (ih _)

theorem insertAll_of_subset {names more : List String} (known : more ⊆ names) :
    insertAll names more = names := by
  induction more with
  | nil => rfl
  | cons name more ih =>
      have here : insert names name = names := if_pos (known (by simp))
      change insertAll (insert names name) more = names
      rw [here]
      exact ih (List.subset_of_cons_subset known)

theorem insertAll_insertAll (names first more : List String) :
    insertAll (insertAll names first) (insertAll first more) =
      insertAll names (insertAll first more) := by
  obtain ⟨later, same⟩ := prefix_insertAll first more
  rw [← same, insertAll_append, insertAll_append]
  congr 1
  exact insertAll_of_subset fun name member => (mem_insertAll _ _ _).mpr (Or.inr member)

end Stepwise.OrderedSet
