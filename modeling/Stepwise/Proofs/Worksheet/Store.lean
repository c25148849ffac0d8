import Stepwise.Proofs.Collections
import Stepwise.Worksheet.Basic

/-!
Storing derivations. The labelled lines of what is stored are registered, each pair of a label and
an expression once; what is registered stays, and what was registered last is found.
-/

namespace Stepwise

namespace Worksheet

structure IsPublished (settings : Settings) (history : History) (after : Settings) : Prop where
  others : after = { settings with labels := after.labels }
  kept : settings.labels <+: after.labels
  distinct : settings.labels.Nodup → after.labels.Nodup
  registered : ∀ line ∈ history, ∀ label, line.name? = some label →
    (label, line.expr) ∈ after.labels
  origin : ∀ pair ∈ after.labels, pair ∈ settings.labels ∨ ∃ line ∈ history, line.expr = pair.2

theorem mem_of_labelled {settings : Settings} {label : String} {e : Expr}
    (known : settings.labelled label = .ok e) : (label, e) ∈ settings.labels := by
  unfold Settings.labelled at known
  split at known
  · rename_i pair found
    obtain rfl := Except.ok.inj known
    have named : pair.1 = label := by simpa using List.find?_some found
    exact named ▸ List.mem_reverse.mp (List.mem_of_find?_eq_some found)
  · simp at known

theorem register_of_unknown {settings : Settings} {label : String} {e : Expr}
    (unknown : ¬settings.knows label e = true) :
    settings.register label e = { settings with labels := settings.labels ++ [(label, e)] } := by
  rw [Settings.register, if_neg unknown]

theorem IsPublished.forall_labels {settings after : Settings} {history : History}
    (published : IsPublished settings history after) {P : Expr → Prop}
    (known : ∀ pair ∈ settings.labels, P pair.2) (lines : ∀ line ∈ history, P line.expr) :
    ∀ pair ∈ after.labels, P pair.2 := by
  intro pair member
  rcases published.origin pair member with old | ⟨line, inHistory, same⟩
  · exact known pair old
  · exact same ▸ lines line inHistory

theorem IsPublished.cons {settings after : Settings} {line : Line} {rest : History}
    (later : IsPublished settings rest after)
    (here : ∀ label, line.name? = some label → (label, line.expr) ∈ settings.labels) :
    IsPublished settings (line :: rest) after := by
  refine ⟨later.others, later.kept, later.distinct, ?_, ?_⟩
  · intro other member label found
    rcases List.mem_cons.mp member with rfl | inRest
    · exact later.kept.subset (here label found)
    · exact later.registered other inRest label found
  · intro pair member
    rcases later.origin pair member with old | ⟨other, inRest, same⟩
    · exact Or.inl old
    · exact Or.inr ⟨other, by simp [inRest], same⟩

theorem publish_isPublished (settings : Settings) (history : History) :
    IsPublished settings history (publish settings history).1 := by
  induction history generalizing settings with
  | nil => exact ⟨rfl, List.prefix_rfl, id, by simp, fun pair member => Or.inl member⟩
  | cons line rest ih =>
      rw [publish]
      cases named : line.name? with
      | none => exact (ih settings).cons (by simp [named])
      | some name =>
          have sameName {label : String} (found : line.name? = some label) : name = label :=
            Option.some.inj (named.symm.trans found)
          dsimp only
          split
          · rename_i known
            refine (ih settings).cons fun label found => ?_
            obtain rfl := sameName found
            exact of_decide_eq_true known
          · rename_i unknown
            have later := ih (settings.register name line.expr)
            rw [register_of_unknown unknown] at later ⊢
            have absent : (name, line.expr) ∉ settings.labels :=
              fun member => unknown (decide_eq_true member)
            have whole : IsPublished _ (line :: rest) _ :=
              later.cons fun label found => by simp [sameName found]
            refine ⟨later.others, (List.prefix_append _ _).trans later.kept, ?_,
              whole.registered, ?_⟩
            · intro distinct
              refine later.distinct (List.nodup_append.mpr ⟨distinct, by simp, ?_⟩)
              rintro pair member other single rfl
              exact absent (List.mem_singleton.mp single ▸ member)
            · intro pair member
              rcases whole.origin pair member with old | below
              · rcases List.mem_append.mp old with known | new
                · exact Or.inl known
                · exact Or.inr ⟨line, by simp, (List.mem_singleton.mp new).symm ▸ rfl⟩
              · exact Or.inr below

theorem store_result (ws : Worksheet) (index : Nat) (history : History) :
    (ws.store index history).result =
      if index < ws.sequences.length then
        .ok ⟨(publish ws.settings history).1, ws.sequences.set index history⟩
      else .error .outOfRange := by
  rw [store, Index.set?_natCast]
  by_cases inside : index < ws.sequences.length
  · rw [if_pos inside, if_pos inside]
  · rw [if_neg inside, if_neg inside]
    rfl

end Worksheet

/-- What was registered last under the name. -/
def IsLatest (labels : List (String × Expr)) (name : String) (e : Expr) : Prop :=
  ∃ earlier later, labels = earlier ++ (name, e) :: later ∧ ∀ pair ∈ later, pair.1 ≠ name

def History.IsRegistered (history : History) (labels : List (String × Expr)) : Prop :=
  ∀ line ∈ history, ∀ label, line.name? = some label → (label, line.expr) ∈ labels

theorem History.IsRegistered.mono {history : History} {labels more : List (String × Expr)}
    (registered : history.IsRegistered labels) (kept : labels ⊆ more) :
    history.IsRegistered more :=
  fun line member label named => kept (registered line member label named)

namespace Settings

variable {settings : Settings}

theorem labelled_eq_ok_iff {name : String} {e : Expr} :
    settings.labelled name = .ok e ↔ IsLatest settings.labels name e := by
  have searched : settings.labelled name = .ok e ↔
      settings.labels.reverse.find? (fun pair => pair.1 = name) = some (name, e) := by
    unfold labelled
    split
    · rename_i pair found
      have same : pair.1 = name := by simpa using List.find?_some found
      simp [found, Prod.ext_iff, same]
    · rename_i unknown
      simp [unknown]
  rw [searched, List.find?_eq_some_iff_append]
  constructor
  · rintro ⟨_, later, earlier, parts, others⟩
    refine ⟨earlier.reverse, later.reverse, ?_, by simpa using others⟩
    rw [← settings.labels.reverse_reverse, parts]
    simp
  · rintro ⟨earlier, later, parts, others⟩
    exact ⟨by simp, later.reverse, earlier.reverse, by simp [parts], by simpa using others⟩

theorem exists_labelled {name : String} {e : Expr} (member : (name, e) ∈ settings.labels) :
    ∃ latest, settings.labelled name = .ok latest := by
  unfold labelled
  split
  · exact ⟨_, rfl⟩
  · rename_i unknown
    rw [List.find?_eq_none] at unknown
    simpa using unknown (name, e) (List.mem_reverse.mpr member)

def enter (settings : Settings) (line : Line) : Settings :=
  match line.name? with
  | some label => settings.register label line.expr
  | none => settings

theorem register_of_known (settings : Settings) {label : String} {e : Expr}
    (known : settings.knows label e = true) : settings.register label e = settings :=
  if_pos known

theorem subset_register (settings : Settings) (label : String) (e : Expr) :
    settings.labels ⊆ (settings.register label e).labels := by
  unfold register
  split
  · exact List.Subset.refl _
  · exact List.subset_append_left _ _

theorem labelled_register (settings : Settings) (name : String) (e : Expr) :
    ∃ latest, (settings.register name e).labelled name = .ok latest ∧
      ((name, e) ∉ settings.labels → latest = e) ∧
      ((name, e) ∈ settings.labels → IsLatest settings.labels name latest) := by
  by_cases member : (name, e) ∈ settings.labels
  · obtain ⟨latest, found⟩ := exists_labelled member
    rw [settings.register_of_known (decide_eq_true member)]
    exact ⟨latest, found, fun absent => absurd member absent,
      fun _ => labelled_eq_ok_iff.mp found⟩
  · have unknown : ¬settings.knows name e = true := fun known => member (of_decide_eq_true known)
    refine ⟨e, ?_, fun _ => rfl, fun known => absurd known member⟩
    rw [Worksheet.register_of_unknown unknown, labelled_eq_ok_iff]
    exact ⟨settings.labels, [], rfl, by simp⟩

theorem enter_of_known (settings : Settings) {line : Line}
    (known : ∀ label, line.name? = some label → (label, line.expr) ∈ settings.labels) :
    settings.enter line = settings := by
  unfold enter
  split
  · rename_i label named
    exact settings.register_of_known (decide_eq_true (known label named))
  · rfl

theorem enter_registered (settings : Settings) {history : History}
    (registered : history.IsRegistered settings.labels) :
    history.foldl enter settings = settings := by
  induction history with
  | nil => rfl
  | cons line rest ih =>
      rw [List.foldl_cons, settings.enter_of_known (registered line (by simp))]
      exact ih fun other member => registered other (by simp [member])

end Settings

namespace Worksheet

theorem publish_eq_foldl (settings : Settings) (history : History) :
    (publish settings history).1 = history.foldl Settings.enter settings := by
  induction history generalizing settings with
  | nil => rfl
  | cons line rest ih =>
      rw [List.foldl_cons, ← ih, publish, Settings.enter]
      cases line.name? with
      | none => rfl
      | some label =>
          dsimp only
          split
          · rename_i known
            rw [settings.register_of_known known]
          · rfl

theorem publish_of_registered {settings : Settings} {history : History}
    (registered : history.IsRegistered settings.labels) :
    (publish settings history).1 = settings := by
  rw [publish_eq_foldl, settings.enter_registered registered]

/-- Where one line is named anew, that name and its expression are all there is to register. -/
theorem publish_named {settings : Settings} {history : History} {place : Nat} {line : Line}
    (registered : history.IsRegistered settings.labels) (found : history[place]? = some line)
    {name : String} (named : name ≠ "") :
    (publish settings (history.set place { line with label := some name })).1 =
      settings.register name line.expr := by
  have entered : settings.enter { line with label := some name } =
      settings.register name line.expr := by
    simp [Settings.enter, Line.name?, Option.filter, named]
  have before : History.IsRegistered (history.take place) settings.labels :=
    fun other member => registered other (List.mem_of_mem_take member)
  have after : History.IsRegistered (history.drop (place + 1)) settings.labels :=
    fun other member => registered other (List.mem_of_mem_drop member)
  have inside := (List.getElem?_eq_some_iff.mp found).1
  rw [publish_eq_foldl, List.set_eq_take_append_cons_drop, if_pos inside, List.foldl_append,
    settings.enter_registered before, List.foldl_cons, entered]
  exact Settings.enter_registered _ (after.mono (settings.subset_register _ _))

end Worksheet

end Stepwise
