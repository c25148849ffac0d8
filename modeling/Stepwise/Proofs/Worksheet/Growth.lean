import Stepwise.Proofs.Collections
import Stepwise.Worksheet.Derivation

/-!
Histories only grow at the end: whatever is pushed or applied, the former lines stay in front. A
line can be labelled, which changes nothing else, and the lines after one can be dropped.
-/

namespace Stepwise

namespace History

variable {history next : History}

theorem withLabel_map {α : Type} {f : Line → α}
    (same : ∀ (line : Line) (label : Option String), f { line with label := label } = f line)
    {label : Option String} {index : Int} (named : history.withLabel label index = .ok next) :
    next.map f = history.map f := by
  unfold History.withLabel at named
  split at named
  · simp at named
  · rename_i line found
    split at named
    · rename_i stored
      obtain rfl := Except.ok.inj named
      obtain ⟨place, placed, rfl⟩ := Index.set?_eq_some stored
      have known : history[place]? = some line := by
        simpa [Index.get?, placed] using found
      obtain ⟨bound, rfl⟩ := List.getElem?_eq_some_iff.mp known
      rw [List.map_set, same, ← List.map_set, List.set_getElem_self]
    · simp at named

theorem withLabel_eq_ok {place : Nat} {line : Line} (found : history[place]? = some line)
    (label : Option String) :
    history.withLabel label place = .ok (history.set place { line with label := label }) := by
  have inside := (List.getElem?_eq_some_iff.mp found).1
  rw [withLabel, Index.get?_natCast, found]
  dsimp only
  rw [Index.set?_natCast, if_pos inside]

theorem resetTo_eq_ok {index : Int} (dropped : history.resetTo index = .ok next) :
    next = history.take (index.toNat + 1) := by
  unfold History.resetTo at dropped
  split at dropped
  · exact (Except.ok.inj dropped).symm
  · simp at dropped

end History

namespace Settings

variable (settings : Settings)

def derive (history : History) : List (String × Address) → History
  | [] => history
  | (id, address) :: calls => derive (settings.applyRule history id address).history calls

theorem runAuto_grows (history : History) : history <+: (settings.runAuto history).history := by
  unfold runAuto
  split
  · exact List.prefix_refl history
  · split
    · exact List.prefix_refl history
    · exact List.prefix_append history _

theorem push_grows (history : History) (action : Action) (e : Expr) :
    history ++ [.byUser action (settings.normalize e)] <+:
      (settings.push history action e).history :=
  settings.runAuto_grows _

theorem applyRule_grows (history : History) (id : String) (address : Address) :
    history <+: (settings.applyRule history id address).history := by
  unfold applyRule
  split
  · exact List.prefix_refl history
  · exact List.prefix_refl history
  · rename_i rule e _ _
    unfold tryPush
    split
    · rename_i result _
      exact (List.prefix_append history _).trans (settings.push_grows history _ result)
    · exact List.prefix_refl history
    · exact List.prefix_refl history

theorem derive_grows (history : History) (calls : List (String × Address)) :
    history <+: settings.derive history calls := by
  induction calls generalizing history with
  | nil => exact List.prefix_refl history
  | cons call calls ih =>
      obtain ⟨id, address⟩ := call
      exact (settings.applyRule_grows history id address).trans (ih _)

end Settings

end Stepwise
