import Stepwise.Fault

/-!
Computations that may fail. Where one did not, each of its steps has a value; what is known of both
outcomes of the steps is known of the whole.
-/

namespace Stepwise.Attempt

variable {α β : Type}

theorem bind_eq_ok {attempt : Attempt α} {next : α → Attempt β} {result : β} :
    attempt >>= next = .ok result ↔ ∃ value, attempt = .ok value ∧ next value = .ok result := by
  cases attempt with
  | ok value =>
      constructor
      · intro finished
        exact ⟨value, rfl, finished⟩
      · rintro ⟨other, same, finished⟩
        exact Except.ok.inj same ▸ finished
  | error fault =>
      constructor
      · intro failed
        exact absurd failed (by simp [bind, Except.bind])
      · rintro ⟨other, same, _⟩
        simp at same

theorem bind_eq_error {attempt : Attempt α} {next : α → Attempt β} {fault : Fault} :
    attempt >>= next = .error fault ↔
      attempt = .error fault ∨ ∃ value, attempt = .ok value ∧ next value = .error fault := by
  cases attempt with
  | ok value => simp [bind, Except.bind]
  | error other => simp [bind, Except.bind]

theorem stepFault_ne_ok (cause : StepFault) (value : α) :
    stepFault cause ≠ (.ok value : Attempt α) := by
  simp [stepFault]

def IsSkipped (attempt : Attempt α) : Prop := ∃ cause, attempt = .error (.step cause)

theorem orSkip_eq_none {attempt : Attempt α} : attempt.orSkip = .ok none ↔ attempt.IsSkipped := by
  unfold orSkip IsSkipped
  split
  · simp
  · simp
  · rename_i fault other
    simp only [reduceCtorEq, Except.error.injEq, false_iff, not_exists]
    exact other

theorem orSkip_eq_ok_some {attempt : Attempt α} {value : α} :
    attempt.orSkip = .ok (some value) ↔ attempt = .ok value := by
  unfold orSkip
  split
  · simp
  · simp
  · simp

theorem orSkip_eq_error {attempt : Attempt α} {fault : Fault}
    (raised : attempt.orSkip = .error fault) : attempt = .error fault ∧ ¬attempt.IsSkipped := by
  unfold orSkip at raised
  split at raised
  · simp at raised
  · simp at raised
  · rename_i other notStep
    obtain rfl := Except.error.inj raised
    refine ⟨rfl, ?_⟩
    rintro ⟨cause, same⟩
    exact notStep cause (Except.error.inj same)

/-- The value satisfies the one condition, or the fault the other. -/
def Ends (onValue : α → Prop) (onFault : Fault → Prop) : Attempt α → Prop
  | .ok value => onValue value
  | .error fault => onFault fault

section

variable {P R : α → Prop} {Q S : Fault → Prop}

theorem Ends.value {attempt : Attempt α} (ends : attempt.Ends P Q) {value : α}
    (finished : attempt = .ok value) : P value := by
  rw [finished] at ends
  exact ends

theorem Ends.fault {attempt : Attempt α} (ends : attempt.Ends P Q) {fault : Fault}
    (failed : attempt = .error fault) : Q fault := by
  rw [failed] at ends
  exact ends

theorem Ends.imp {attempt : Attempt α} (ends : attempt.Ends P Q)
    (onValue : ∀ value, attempt = .ok value → P value → R value)
    (onFault : ∀ fault, Q fault → S fault) : attempt.Ends R S := by
  cases attempt with
  | ok value => exact onValue value rfl ends
  | error fault => exact onFault fault ends

theorem Ends.imp_fault {attempt : Attempt α} (ends : attempt.Ends P Q)
    (onFault : ∀ fault, Q fault → S fault) : attempt.Ends P S :=
  ends.imp (fun _ _ known => known) onFault

theorem Ends.bind {attempt : Attempt α} (ends : attempt.Ends P Q) {next : α → Attempt β}
    {onResult : β → Prop}
    (later : ∀ value, attempt = .ok value → P value → (next value).Ends onResult Q) :
    (attempt >>= next).Ends onResult Q := by
  cases attempt with
  | ok value => exact later value rfl ends
  | error fault => exact ends

theorem ends_mapM {f : β → Attempt α} {xs : List β} (each : ∀ x ∈ xs, (f x).Ends P Q) :
    (xs.mapM f).Ends (fun values => values.length = xs.length ∧ ∀ value ∈ values, P value) Q := by
  induction xs with
  | nil => exact ⟨rfl, by simp⟩
  | cons x xs ih =>
      rw [List.mapM_cons]
      refine (each x (by simp)).bind fun first _ here => ?_
      refine (ih fun other member => each other (by simp [member])).bind fun others _ below => ?_
      exact ⟨congrArg Nat.succ below.1, List.forall_mem_cons.mpr ⟨here, below.2⟩⟩

theorem mapM_congr {f g : β → Attempt α} {xs : List β} (each : ∀ x ∈ xs, f x = g x) :
    xs.mapM f = xs.mapM g := by
  induction xs with
  | nil => rfl
  | cons x xs ih =>
      rw [List.mapM_cons, List.mapM_cons, each x (by simp),
        ih fun other member => each other (by simp [member])]

theorem exists_mapM_eq_ok_iff {f : β → Attempt α} {xs : List β} :
    (∃ values, xs.mapM f = .ok values) ↔ ∀ x ∈ xs, ∃ value, f x = .ok value := by
  induction xs with
  | nil => exact ⟨fun _ _ member => absurd member List.not_mem_nil, fun _ => ⟨[], rfl⟩⟩
  | cons x xs ih =>
      rw [List.forall_mem_cons, ← ih, List.mapM_cons]
      constructor
      · rintro ⟨_, finished⟩
        obtain ⟨value, here, later⟩ := bind_eq_ok.mp finished
        obtain ⟨others, below, _⟩ := bind_eq_ok.mp later
        exact ⟨⟨value, here⟩, others, below⟩
      · rintro ⟨⟨value, here⟩, others, below⟩
        exact ⟨value :: others, bind_eq_ok.mpr ⟨value, here, bind_eq_ok.mpr ⟨others, below, rfl⟩⟩⟩

theorem mapM_eq_error_iff {f : β → Attempt α} {xs : List β} {fault : Fault} :
    xs.mapM f = .error fault ↔ ∃ before x after, xs = before ++ x :: after ∧
      (∀ y ∈ before, ∃ value, f y = .ok value) ∧ f x = .error fault := by
  induction xs with
  | nil =>
      constructor
      · intro failed
        exact nomatch failed
      · rintro ⟨before, x, after, parts, _⟩
        simp at parts
  | cons x xs ih =>
      rw [List.mapM_cons, bind_eq_error]
      constructor
      · rintro (here | ⟨value, here, later⟩)
        · exact ⟨[], x, xs, rfl, by simp, here⟩
        · rcases bind_eq_error.mp later with failed | ⟨_, _, other⟩
          · obtain ⟨before, y, after, rfl, read, fails⟩ := ih.mp failed
            have earlier := List.forall_mem_cons.mpr ⟨⟨value, here⟩, read⟩
            exact ⟨x :: before, y, after, rfl, earlier, fails⟩
          · exact nomatch other
      · rintro ⟨before, y, after, parts, read, fails⟩
        rcases List.cons_eq_append_iff.mp parts with ⟨rfl, same⟩ | ⟨rest, rfl, rfl⟩
        · obtain ⟨rfl, rfl⟩ := List.cons.inj same
          exact Or.inl fails
        · obtain ⟨⟨value, here⟩, others⟩ := List.forall_mem_cons.mp read
          have failed := ih.mpr ⟨rest, y, after, rfl, others, fails⟩
          exact Or.inr ⟨value, here, bind_eq_error.mpr (Or.inl failed)⟩

end

end Stepwise.Attempt

namespace Stepwise.Fault

def IsStep (fault : Fault) : Prop := ∃ cause, fault = .step cause

end Stepwise.Fault
