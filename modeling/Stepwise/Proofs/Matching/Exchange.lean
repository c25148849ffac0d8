import Stepwise.Proofs.Deduction.Shaped
import Stepwise.Proofs.Matching.Mutual

/-!
Exchanging the operands of a binary pattern and of its subject. The same is bound, so an instance
test has the same answer; and where the two match each other the test does have an answer.
-/

namespace Stepwise.Expr

theorem LoneTemplates.image_wellShaped {e : Expr} (lone : e.LoneTemplates) (shaped : e.WellShaped)
    {σ : String → Expr} (values : ∀ name, (σ name).WellShaped) {shared : List String}
    (image : ((e.expandAll shared 1).subst σ).WellShaped) (others : List String) :
    ((e.expandAll others 1).subst σ).WellShaped ∧
      ((e.expandAll others 1).subst σ).isMarker = ((e.expandAll shared 1).subst σ).isMarker := by
  induction e using templateInduction with
  | var symbol children => simpa using image
  | variadicTrain symbol mark template =>
      have marker := (loneTemplates_node _ _ _).mp (lone.child (List.mem_singleton_self _))
      have templateShaped :=
        (shaped.child (List.mem_singleton_self _)).child (List.mem_singleton_self _)
      obtain ⟨name, rfl⟩ := templateShaped.eq_var (marker.1 rfl _ (List.mem_singleton_self _))
      simp only [expandAll_variadicTrain, copies_eq_map,
        subst_node _ _ _ _ (by decide : Kind.train ≠ .var)]
      refine ⟨?_, rfl⟩
      simp [var, wellShaped_node, shapeFault?, countFault?, values]
  | other kind symbol children notVar plain each =>
      rw [expandAll_node _ _ _ _ _ notVar plain, subst_node _ _ _ _ notVar, List.map_map] at image ⊢
      rw [expandAll_node _ _ _ _ _ notVar plain, subst_node _ _ _ _ notVar, List.map_map]
      have below : ∀ child ∈ children, _ := fun child member => each child member
        (lone.child member) (shaped.child member) (image.child (List.mem_map_of_mem member))
      refine ⟨(wellShaped_node _ _ _).mpr ⟨?_, ?_⟩, rfl⟩
      · rw [shapeFault?_map_congr (subst σ ∘ expandAll others 1) (subst σ ∘ expandAll shared 1) kind
          children fun child member => (below child member).2]
        exact ((wellShaped_node _ _ _).mp image).1
      · simp only [List.mem_map]
        rintro _ ⟨child, member, rfl⟩
        exact (below child member).1

theorem MatchedOnce.counted {pattern : Expr} {bindings : Bindings}
    (once : pattern.MatchedOnce bindings) (shaped : pattern.WellShaped)
    (root : pattern.isMarker = false) : Counted bindings pattern 1 := by
  refine ⟨Nat.le_refl 1, ?_⟩
  by_cases variadic : pattern.HasVariadicTrain
  · exact Or.inr (once.2 variadic)
  · exact Or.inl (markerFree_of_not_hasVariadicTrain shaped root variadic)

theorem exists_instance_of_matchedOnce {subject pattern : Expr} {bindings : Bindings}
    (subjectShaped : subject.WellShaped) (shaped : pattern.WellShaped)
    (root : pattern.isMarker = false) (found : subject.bindings? pattern = some bindings)
    (once : pattern.MatchedOnce bindings) : ∃ image, pattern.instantiate bindings = .ok image := by
  have counted := once.counted shaped root
  rcases counted.2 with free | counts
  · exact ⟨subject, instantiate_of_markerFree subjectShaped shaped free found⟩
  · have flat := once.1.flat shaped
    have image := subst_of_bindings? subjectShaped shaped flat counted found
    have values (name : String) : (bindings.toSubst name).WellShaped :=
      (values_wellShaped subjectShaped found).toSubst (plain_var name).1
    have shapedImage := once.1.image_wellShaped shaped values (image.symm ▸ subjectShaped)
      bindings.keys
    exact ⟨_, instantiate_eq_subst_expandAll bindings (Nat.le_refl 1)
      (arity_of_counted counts (by decide)) pattern shaped flat shapedImage.1⟩

section

variable {symbol : String} {first second third fourth : Expr} {bindings : Bindings}

theorem wellShaped_binary (symbol : String) (first second : Expr) :
    (binary symbol first second).WellShaped ↔ first.IsOperand ∧ second.IsOperand := by
  rw [binary, wellShaped_iff_of_plain rfl]
  simp [countFault?]

theorem WellShaped.exchange (shaped : (binary symbol first second).WellShaped) :
    (binary symbol second first).WellShaped :=
  (wellShaped_binary _ _ _).mpr ((wellShaped_binary _ _ _).mp shaped).symm

theorem mem_occurrences_binary (skip : Bool) (symbol : String) (first second : Expr)
    (name : String) : name ∈ (binary symbol first second).occurrences skip ↔
      name ∈ first.occurrences skip ∨ name ∈ second.occurrences skip := by
  simp [binary, occurrences_node]

theorem mem_fixedVariables_exchange (symbol : String) (first second : Expr) (name : String) :
    name ∈ (binary symbol first second).fixedVariables ↔
      name ∈ (binary symbol second first).fixedVariables := by
  simp only [mem_fixedVariables, mem_occurrences_binary, or_comm]

theorem image_binary (shared : List String) (count : Nat) (σ : String → Expr) :
    ((binary symbol first second).expandAll shared count).subst σ =
      binary symbol ((first.expandAll shared count).subst σ)
        ((second.expandAll shared count).subst σ) := by
  rw [binary, expandAll_node _ _ _ _ _ (by decide) rfl, subst_node _ _ _ _ (by decide)]
  rfl

theorem MatchedOnce.exchange (once : (binary symbol first second).MatchedOnce bindings)
    {others : Bindings} (same : ∀ name, others.find? name = bindings.find? name) :
    (binary symbol second first).MatchedOnce others := by
  obtain ⟨lone, counts⟩ := once
  constructor
  · exact (loneTemplates_node _ _ _).mpr ⟨by simp, by
      simpa [and_comm] using ((loneTemplates_node _ _ _).mp lone).2⟩
  · intro variadic
    rw [same]
    refine counts ?_
    simp only [binary, hasVariadicTrain_node, isVariadicTrain, template?] at variadic ⊢
    simpa [or_comm] using variadic

theorem bindings?_exchange (patternShaped : (binary symbol first second).WellShaped)
    (subjectShaped : (binary symbol third fourth).WellShaped)
    (found : (binary symbol third fourth).bindings? (binary symbol first second) = some bindings)
    (once : (binary symbol first second).MatchedOnce bindings) :
    ∃ others, (binary symbol fourth third).bindings? (binary symbol second first) = some others ∧
      ∀ name, others.find? name = bindings.find? name := by
  have shaped := patternShaped.exchange
  have otherShaped := subjectShaped.exchange
  have flat := once.1.flat patternShaped
  have exchanged := once.exchange fun _ => rfl
  have flatExchanged := exchanged.1.flat shaped
  have counts := (exchanged.counted shaped rfl).toSubst
  have sharing (name : String) (_ : name ∈ (binary symbol second first).occurrences false) :=
    mem_fixedVariables_exchange symbol second first name
  have image := subst_of_bindings? subjectShaped patternShaped flat
    (once.counted patternShaped rfl) found
  rw [image_binary] at image
  obtain ⟨_, _, operands⟩ := node.inj image
  have imageExchanged : ((binary symbol second first).expandAll
      (binary symbol second first).fixedVariables 1).subst bindings.toSubst =
        binary symbol fourth third := by
    rw [expandAll_congr sharing, image_binary, (List.cons.inj operands).1,
      (List.cons.inj (List.cons.inj operands).2).1]
  obtain ⟨others, foundOthers, agrees⟩ :=
    bindings?_of_subst otherShaped shaped flatExchanged bindings.toSubst counts imageExchanged
  refine ⟨others, foundOthers, ?_⟩
  have keys := keys_of_bindings? patternShaped flat (once.counted patternShaped rfl) found
  have otherKeys := matchNode_binds _ 1 bindings.toSubst _ _ shaped flatExchanged counts [] others
    foundOthers agrees
  have sameKeys (name : String) : name ∈ others.keys ↔ name ∈ bindings.keys := by
    rw [keys, otherKeys, OrderedSet.mem_insertAll, OrderedSet.mem_insertAll,
      boundNames_congr sharing, binary, binary,
      boundNames_node _ _ _ _ _ (by decide) rfl, boundNames_node _ _ _ _ _ (by decide) rfl]
    simp [or_comm, Table.keys]
  intro name
  cases known : bindings.find? name with
  | none =>
      rw [Table.find?_eq_none_iff, sameKeys, ← Table.find?_eq_none_iff]
      exact known
  | some value =>
      obtain ⟨other, bound⟩ := (Table.mem_keys_iff others name).mp
        ((sameKeys name).mpr ((Table.mem_keys_iff bindings name).mpr ⟨value, known⟩))
      have same := agrees name other bound
      rw [Bindings.toSubst, known, Option.getD_some] at same
      rw [bound, same]

theorem instantiate_binary {image : Expr}
    (built : (binary symbol first second).instantiate bindings = .ok image) :
    ∃ left right, first.instantiate bindings = .ok left ∧ second.instantiate bindings = .ok right ∧
      image = binary symbol left right := by
  rw [instantiate, binary, instantiateRenamed_node _ _ _ _ _ (by decide) rfl] at built
  obtain ⟨parts, inside, whole⟩ := Attempt.bind_eq_ok.mp built
  rw [instantiateEach] at inside
  obtain ⟨left, builtLeft, inside⟩ := Attempt.bind_eq_ok.mp inside
  obtain ⟨others, inside, same⟩ := Attempt.bind_eq_ok.mp inside
  rw [instantiateEach] at inside
  obtain ⟨right, builtRight, inside⟩ := Attempt.bind_eq_ok.mp inside
  obtain ⟨_, none, last⟩ := Attempt.bind_eq_ok.mp inside
  rw [instantiateEach] at none
  obtain rfl := Except.ok.inj none
  obtain rfl := Except.ok.inj last
  obtain rfl := Except.ok.inj same
  exact ⟨left, right, builtLeft, builtRight, eq_of_build whole⟩

/-- The pattern matches the subject only if the two match each other. -/
def OnlyMutually (subject pattern : Expr) : Prop :=
  ∀ bindings, subject.bindings? pattern = some bindings → pattern.MatchedOnce bindings

theorem onlyMutually_self {e : Expr} (shaped : e.WellShaped) (root : e.isMarker = false) :
    e.OnlyMutually e :=
  fun _ found => matchedOnce_of_mutual shaped shaped root found found

theorem onlyMutually_mirror (shaped : (binary symbol first second).WellShaped) :
    (binary symbol second first).OnlyMutually (binary symbol first second) := by
  intro bindings found
  obtain ⟨left, right⟩ := (wellShaped_binary _ _ _).mp shaped
  rw [bindings?, binary, binary, matchNode_node _ _ _ _ _ _ _ _ (by decide) (by decide) rfl,
    if_pos ⟨rfl, rfl, rfl⟩] at found
  obtain ⟨_, _, forth, within⟩ := exists_of_matchEach found 0 rfl rfl
  obtain ⟨_, _, back, withinBack⟩ := exists_of_matchEach found 1 rfl rfl
  refine matchedOnce_node (by decide) rfl ?_
  intro child member
  rcases List.mem_cons.mp member with rfl | later
  · exact (matchedOnce_of_mutual right.1 left.1 left.2 forth back).of_isPartOf within
  · obtain rfl := List.mem_singleton.mp later
    exact (matchedOnce_of_mutual left.1 right.1 right.2 back forth).of_isPartOf withinBack

theorem exists_isInstanceOf {subject pattern : Expr} (subjectShaped : subject.WellShaped)
    (shaped : pattern.WellShaped) (root : pattern.isMarker = false)
    (mutually : subject.OnlyMutually pattern) :
    ∃ answer, subject.isInstanceOf pattern = .ok answer := by
  unfold isInstanceOf
  cases found : subject.bindings? pattern with
  | none => exact ⟨false, rfl⟩
  | some bindings =>
      obtain ⟨image, built⟩ := exists_instance_of_matchedOnce subjectShaped shaped root found
        (mutually bindings found)
      simp only [built]
      exact ⟨_, rfl⟩

theorem exists_of_isInstanceOf {subject pattern : Expr}
    (yes : subject.isInstanceOf pattern = .ok true) :
    ∃ bindings, subject.bindings? pattern = some bindings := by
  unfold isInstanceOf at yes
  cases found : subject.bindings? pattern with
  | none => simp [found] at yes
  | some bindings => exact ⟨bindings, rfl⟩

theorem isInstanceOf_self_of_plain {e : Expr} (plain : e.Plain) : e.isInstanceOf e = .ok true := by
  obtain ⟨bindings, found, _⟩ := bindings?_self plain
  rw [isInstanceOf, found]
  simp only [instantiate_of_markerFree plain.1 plain.1 plain.2 found]
  exact congrArg Except.ok (decide_eq_true rfl)

theorem isInstanceOf_exchange (patternShaped : (binary symbol first second).WellShaped)
    (subjectShaped : (binary symbol third fourth).WellShaped)
    (mutually : (binary symbol third fourth).OnlyMutually (binary symbol first second))
    (exchanged : (binary symbol fourth third).OnlyMutually (binary symbol second first)) :
    (binary symbol fourth third).isInstanceOf (binary symbol second first) =
      (binary symbol third fourth).isInstanceOf (binary symbol first second) := by
  have shaped := patternShaped.exchange
  have otherShaped := subjectShaped.exchange
  unfold isInstanceOf
  cases found : (binary symbol third fourth).bindings? (binary symbol first second) with
  | none =>
      cases back : (binary symbol fourth third).bindings? (binary symbol second first) with
      | none => rfl
      | some others =>
          obtain ⟨_, again, _⟩ := bindings?_exchange shaped otherShaped back (exchanged others back)
          simp [found] at again
  | some bindings =>
      have once := mutually bindings found
      obtain ⟨others, back, same⟩ := bindings?_exchange patternShaped subjectShaped found once
      obtain ⟨image, built⟩ :=
        exists_instance_of_matchedOnce subjectShaped patternShaped rfl found once
      obtain ⟨mirrored, builtMirrored⟩ :=
        exists_instance_of_matchedOnce otherShaped shaped rfl back (exchanged others back)
      obtain ⟨left, right, builtLeft, builtRight, rfl⟩ := instantiate_binary built
      obtain ⟨_, _, builtSecond, builtFirst, rfl⟩ := instantiate_binary builtMirrored
      rw [instantiate, instantiateRenamed_congr same] at builtSecond builtFirst
      obtain rfl := Except.ok.inj (builtRight.symm.trans builtSecond)
      obtain rfl := Except.ok.inj (builtLeft.symm.trans builtFirst)
      rw [back]
      simp only [built, builtMirrored]
      have iff : binary symbol right left = binary symbol fourth third ↔
          binary symbol left right = binary symbol third fourth := by
        simp [binary, and_comm]
      exact congrArg Except.ok (decide_eq_decide.mpr iff)

end

end Stepwise.Expr
