import Stepwise.Proofs.Matching.Images
import Stepwise.Proofs.Matching.Names

/-!
What is known of the bindings that a match finds: the number of copies if the pattern has variadic
trains, that the expanded pattern becomes the subject, and which names are bound.
-/

namespace Stepwise.Expr

def TrainLengths (admits : Nat → Prop) [DecidablePred admits] (e : Expr) : Prop :=
  e.allNodes (fun kind _ children => kind = .train → admits children.length) = true

theorem trainLengths_node (admits : Nat → Prop) [DecidablePred admits] (kind : Kind)
    (symbol : String) (children : List Expr) :
    (node kind symbol children).TrainLengths admits ↔
      (kind = .train → admits children.length) ∧
        ∀ child ∈ children, child.TrainLengths admits := by
  rw [TrainLengths, allNodes_node, decide_eq_true_iff]
  rfl

theorem WellShaped.trainLengths {e : Expr} (shaped : e.WellShaped) :
    e.TrainLengths (1 ≤ ·) := by
  induction e using Expr.induction with
  | node kind symbol children each =>
      rw [trainLengths_node]
      refine ⟨?_, fun child member => each child member (shaped.child member)⟩
      rintro rfl
      have count := ((shapeFault?_eq_none_iff _ _).mp ((wellShaped_node _ _ _).mp shaped).1).1
      simp only [countFault?] at count
      split at count
      · simp at count
      · omega

section

variable {admits : Nat → Prop}

theorem matchEach_counts {shared : List String} (patterns subjects : List Expr)
    (lengths : patterns.length = subjects.length) {pattern : Expr} (member : pattern ∈ patterns)
    (here : ∀ subject ∈ subjects, ∀ bindings extended,
      matchNode shared pattern bindings subject = some extended →
        ∃ count, admits count ∧ extended.find? ellipsis = some (const (toString count)))
    {bindings extended : Bindings}
    (found : matchEach shared patterns bindings subjects = some extended) :
    ∃ count, admits count ∧ extended.find? ellipsis = some (const (toString count)) := by
  induction patterns generalizing subjects bindings with
  | nil => simp at member
  | cons first others ih =>
      cases subjects with
      | nil => simp at lengths
      | cons subject rest =>
          rw [matchEach_cons] at found
          obtain ⟨middle, atFirst, below⟩ := Option.bind_eq_some_iff.mp found
          rcases List.mem_cons.mp member with rfl | later
          · obtain ⟨count, admitted, counted⟩ := here subject (by simp) bindings middle atFirst
            have within := matchEach_isPartOf shared rest
              (fun s _ => matchNode_isPartOf shared s) others middle extended below
            exact ⟨count, admitted, within _ _ counted⟩
          · exact ih rest (by simpa using lengths) later
              (fun s inRest => here s (by simp [inRest])) below

theorem matchNode_counts [DecidablePred admits] (shared : List String) (subject : Expr)
    (admitted : subject.TrainLengths admits) :
    ∀ pattern : Expr, pattern.WellShaped → pattern.HasVariadicTrain → ∀ bindings extended,
      matchNode shared pattern bindings subject = some extended →
        ∃ count, admits count ∧ extended.find? ellipsis = some (const (toString count)) := by
  induction subject using Expr.induction with
  | node kind symbol children each =>
      intro pattern shaped variadic bindings extended found
      obtain ⟨here, inner⟩ := (trainLengths_node _ _ _ _).mp admitted
      rcases matchNode_cases found with ⟨name, parts, rfl, bound⟩ | ⟨parts, rfl, rfl, rfl⟩ |
        ⟨mark, template, counted, rfl, rfl, number, inside⟩ |
        ⟨patterns, rfl, notVar, _, plain, lengths, inside⟩
      · obtain rfl := shaped.children_eq_nil (Or.inr rfl)
        simp [hasVariadicTrain_node, isVariadicTrain, template?] at variadic
      · obtain rfl := shaped.children_eq_nil (Or.inl rfl)
        simp [hasVariadicTrain_node, isVariadicTrain, template?] at variadic
      · have within := matchEach_isPartOf shared children
          (fun s _ => matchNode_isPartOf shared s) _ counted extended inside
        exact ⟨children.length, here rfl, within _ _ (Bindings.find?_of_extend? number)⟩
      · rw [hasVariadicTrain_node] at variadic
        rcases variadic with isTrain | ⟨part, member, below⟩
        · simp [isVariadicTrain, plain] at isTrain
        · exact matchEach_counts patterns children lengths member
            (fun child inChildren => each child inChildren (inner child inChildren) part
              (shaped.child member) below) inside

end

/-- A number of copies with which a pattern was matched. A pattern without markers was matched with
any number. -/
def Counted (bindings : Bindings) (pattern : Expr) (count : Nat) : Prop :=
  1 ≤ count ∧ (pattern.MarkerFree ∨ bindings.find? ellipsis = some (const (toString count)))

section

variable {subject pattern : Expr} {bindings : Bindings} {count : Nat}

theorem exists_counted (subjectShaped : subject.WellShaped) (shaped : pattern.WellShaped)
    (root : pattern.isMarker = false) (found : subject.bindings? pattern = some bindings) :
    ∃ count, Counted bindings pattern count := by
  by_cases variadic : pattern.HasVariadicTrain
  · obtain ⟨count, positive, counts⟩ := matchNode_counts pattern.fixedVariables subject
      subjectShaped.trainLengths pattern shaped variadic [] bindings found
    exact ⟨count, positive, Or.inr counts⟩
  · exact ⟨1, by omega, Or.inl (markerFree_of_not_hasVariadicTrain shaped root variadic)⟩

theorem Counted.toSubst (counted : Counted bindings pattern count) :
    pattern.MarkerFree ∨ bindings.toSubst ellipsis = const (toString count) := by
  refine counted.2.imp_right ?_
  intro counts
  rw [Bindings.toSubst, counts, Option.getD_some]

theorem subst_of_bindings? (subjectShaped : subject.WellShaped) (shaped : pattern.WellShaped)
    (flat : pattern.FlatTemplates) (counted : Counted bindings pattern count)
    (found : subject.bindings? pattern = some bindings) :
    (pattern.expandAll pattern.fixedVariables count).subst bindings.toSubst = subject :=
  (matchNode_decides pattern.fixedVariables count bindings.toSubst subject subjectShaped pattern
    shaped flat counted.toSubst [] (Bindings.agreesWith_nil _)).mpr
    ⟨bindings, found, Bindings.agreesWith_toSubst bindings⟩

theorem subst_of_markerFree (subjectShaped : subject.WellShaped) (shaped : pattern.WellShaped)
    (plain : pattern.MarkerFree) (found : subject.bindings? pattern = some bindings) :
    pattern.subst bindings.toSubst = subject := by
  have image := subst_of_bindings? subjectShaped shaped plain.flatTemplates
    ⟨Nat.le_refl 1, Or.inl plain⟩ found
  rwa [plain.expandAll_eq] at image

theorem bindings?_of_subst (subjectShaped : subject.WellShaped) (shaped : pattern.WellShaped)
    (flat : pattern.FlatTemplates) (σ : String → Expr)
    (counts : pattern.MarkerFree ∨ σ ellipsis = const (toString count))
    (same : (pattern.expandAll pattern.fixedVariables count).subst σ = subject) :
    ∃ bindings, subject.bindings? pattern = some bindings ∧ bindings.AgreesWith σ :=
  (matchNode_decides pattern.fixedVariables count σ subject subjectShaped pattern
    shaped flat counts [] (Bindings.agreesWith_nil _)).mp same

theorem keys_of_bindings? (shaped : pattern.WellShaped) (flat : pattern.FlatTemplates)
    (counted : Counted bindings pattern count)
    (found : subject.bindings? pattern = some bindings) :
    bindings.keys =
      OrderedSet.insertAll [] (pattern.boundNames pattern.fixedVariables count) :=
  matchNode_binds pattern.fixedVariables count bindings.toSubst subject pattern shaped flat
    counted.toSubst [] bindings found (Bindings.agreesWith_toSubst bindings)

theorem mem_boundNames_iff_fixed (shaped : pattern.WellShaped) (root : pattern.isMarker = false)
    {names : List String} (separate : Separate names)
    (within : ∀ name ∈ pattern.variableNames, name ∈ names) {name : String}
    (member : name ∈ names) (count : Nat) :
    name ∈ pattern.boundNames pattern.fixedVariables count ↔ name ∈ pattern.fixedVariables := by
  rw [mem_fixedVariables]
  refine ⟨?_, fixed_mem_boundNames _ _ pattern name⟩
  intro bound
  rcases boundNames_cases shaped root bound with rfl | fixed | ⟨original, occurs, index, _, rfl⟩
  · exact absurd member separate.1
  · exact fixed
  · by_cases shared : original ∈ pattern.fixedVariables
    · rw [copyName_of_mem shared]
      exact (mem_fixedVariables pattern original).mp shared
    · have inNames := within original ((mem_variableNames pattern original).mpr occurs)
      exact absurd member (separate.copyName_not_mem inNames shared (index + 1))

theorem mem_keys_iff_fixed (shaped : pattern.WellShaped) (root : pattern.isMarker = false)
    (flat : pattern.FlatTemplates) (counted : Counted bindings pattern count)
    (found : subject.bindings? pattern = some bindings) {names : List String}
    (separate : Separate names) (within : ∀ name ∈ pattern.variableNames, name ∈ names)
    {name : String} (member : name ∈ names) :
    name ∈ bindings.keys ↔ name ∈ pattern.fixedVariables := by
  rw [keys_of_bindings? shaped flat counted found, OrderedSet.mem_insertAll,
    ← mem_boundNames_iff_fixed shaped root separate within member count]
  simp only [List.not_mem_nil, false_or]

theorem ellipsis_not_mem_keys (shaped : pattern.WellShaped) (plain : pattern.MarkerFree)
    (found : subject.bindings? pattern = some bindings)
    (absent : ellipsis ∉ pattern.variableNames) : ellipsis ∉ bindings.keys := by
  rw [keys_of_bindings? shaped plain.flatTemplates ⟨Nat.le_refl 1, Or.inl plain⟩ found,
    plain.boundNames_eq, ← variablesAfter_eq]
  exact absent

end

theorem arity_of_unbound {bindings : Bindings} (unbound : ellipsis ∉ bindings.keys) :
    bindings.arity = .ok none := by
  rw [Bindings.arity, (Table.find?_eq_none_iff bindings ellipsis).mpr unbound]

theorem arity_of_counted {bindings : Bindings} {count : Nat}
    (counts : bindings.find? ellipsis = some (const (toString count)))
    (readable : Literal.IsReadable count) : bindings.arity = .ok (some (count : Int)) := by
  rw [Bindings.arity, counts]
  simp only [const, symbol_node, Literal.readInt_of_isReadable readable]

theorem arity_cases {bindings : Bindings} {count : Nat}
    (counts : bindings.find? ellipsis = some (const (toString count))) :
    bindings.arity = .ok (some (count : Int)) ∨ ∃ fault, bindings.arity = .error fault := by
  rw [Bindings.arity, counts]
  simp only [const, symbol_node]
  split
  · rename_i value read
    rw [Literal.eq_of_readInt_toString read]
    exact Or.inl rfl
  · rename_i cause _
    exact Or.inr ⟨.literal cause, rfl⟩

theorem Counted.arity_eq {bindings : Bindings} {pattern : Expr} {count : Nat}
    (counted : Counted bindings pattern count) (variadic : ¬pattern.MarkerFree)
    (readable : ∃ arity, bindings.arity = .ok arity) :
    bindings.arity = .ok (some (count : Int)) := by
  obtain ⟨known, read⟩ := readable
  rcases arity_cases (counted.2.resolve_left variadic) with same | ⟨fault, failed⟩
  · exact same
  · rw [failed] at read
    simp at read

theorem instantiate_of_markerFree {subject pattern : Expr} (subjectShaped : subject.WellShaped)
    (shaped : pattern.WellShaped) (plain : pattern.MarkerFree) {bindings : Bindings}
    (found : subject.bindings? pattern = some bindings) :
    pattern.instantiate bindings = .ok subject := by
  have image := subst_of_markerFree subjectShaped shaped plain found
  rw [instantiate_eq_subst bindings pattern shaped (Or.inl plain) (image.symm ▸ subjectShaped),
    image]

/-- The instance of a pattern under what its match found is the subject. -/
theorem instantiate_of_bindings? {subject pattern : Expr} (subjectShaped : subject.WellShaped)
    (shaped : pattern.WellShaped) (root : pattern.isMarker = false) (flat : pattern.FlatTemplates)
    (separate : Separate pattern.variableNames) {bindings : Bindings}
    (found : subject.bindings? pattern = some bindings) {count : Nat}
    (counted : Counted bindings pattern count)
    (arity : pattern.MarkerFree ∨ bindings.arity = .ok (some (count : Int))) :
    pattern.instantiate bindings = .ok subject := by
  rcases arity with plain | arity
  · exact instantiate_of_markerFree subjectShaped shaped plain found
  · have image := subst_of_bindings? subjectShaped shaped flat counted found
    -- An instance shares the bound names where a match shares the fixed variables.
    have shares : pattern.expandAll bindings.keys count =
        pattern.expandAll pattern.fixedVariables count := by
      apply expandAll_congr
      intro name occurs
      exact mem_keys_iff_fixed shaped root flat counted found separate (fun _ member => member)
        ((mem_variableNames pattern name).mpr occurs)
    rw [← shares] at image
    rw [instantiate_eq_subst_expandAll bindings counted.1 arity pattern shaped flat
      (image.symm ▸ subjectShaped), image]

end Stepwise.Expr
