import Stepwise.Proofs.Expr.Expansion
import Stepwise.Proofs.Matching.Bindings
import Stepwise.Proofs.Number.Numeral

/-!
Matching decides substitution. Under a substitution that has what is already bound, and the number
of copies for the ellipsis, an expanded pattern becomes the subject exactly when the match succeeds
with bindings that the substitution has too.
-/

namespace Stepwise.Expr

theorem matchNode_var (shared : List String) (name : String) (parts : List Expr)
    (bindings : Bindings) (subject : Expr) :
    matchNode shared (node .var name parts) bindings subject = bindings.extend? name subject := by
  obtain ⟨kind, symbol, children⟩ := subject
  rw [matchNode]

theorem matchNode_const (shared : List String) (name : String) (parts : List Expr)
    (bindings : Bindings) (kind : Kind) (symbol : String) (children : List Expr) :
    matchNode shared (node .const name parts) bindings (node kind symbol children) =
      if kind = .const ∧ symbol = name then some bindings else none := by
  rw [matchNode]

theorem matchNode_variadicTrain (shared : List String) (name mark : String) (template : Expr)
    (bindings : Bindings) (kind : Kind) (symbol : String) (children : List Expr) :
    matchNode shared (node .train name [node .variadic mark [template]]) bindings
        (node kind symbol children) =
      if kind = .train ∧ symbol = name then
        (bindings.extend? ellipsis (const (toString children.length))).bind fun counted =>
          matchEach shared (copies shared template children.length) counted children
      else none := by
  rw [matchNode]
  split
  · cases bindings.extend? ellipsis (const (toString children.length)) <;> rfl
  · rfl

theorem matchNode_node (shared : List String) (patternKind : Kind) (name : String)
    (patterns : List Expr) (bindings : Bindings) (kind : Kind) (symbol : String)
    (children : List Expr) (notVar : patternKind ≠ .var) (notConst : patternKind ≠ .const)
    (plain : (node patternKind name patterns).template? = none) :
    matchNode shared (node patternKind name patterns) bindings (node kind symbol children) =
      if patternKind = kind ∧ name = symbol ∧ patterns.length = children.length then
        matchEach shared patterns bindings children
      else none := by
  rw [matchNode]
  · exact notVar
  · exact notConst
  · rintro mark template rfl rfl
    simp [template?] at plain

theorem matchEach_cons (shared : List String) (pattern : Expr) (patterns : List Expr)
    (bindings : Bindings) (subject : Expr) (subjects : List Expr) :
    matchEach shared (pattern :: patterns) bindings (subject :: subjects) =
      (matchNode shared pattern bindings subject).bind fun extended =>
        matchEach shared patterns extended subjects := by
  rw [matchEach]
  cases matchNode shared pattern bindings subject <;> rfl

theorem matchNode_cases {shared : List String} {pattern : Expr} {bindings extended : Bindings}
    {kind : Kind} {symbol : String} {children : List Expr}
    (found : matchNode shared pattern bindings (node kind symbol children) = some extended) :
    (∃ name parts, pattern = node .var name parts ∧
      bindings.extend? name (node kind symbol children) = some extended) ∨
    (∃ parts, pattern = node .const symbol parts ∧ kind = .const ∧ extended = bindings) ∨
    (∃ mark template counted, pattern = node .train symbol [node .variadic mark [template]] ∧
      kind = .train ∧
      bindings.extend? ellipsis (const (toString children.length)) = some counted ∧
      matchEach shared (copies shared template children.length) counted children =
        some extended) ∨
    (∃ patterns, pattern = node kind symbol patterns ∧ kind ≠ .var ∧ kind ≠ .const ∧
      pattern.template? = none ∧ patterns.length = children.length ∧
      matchEach shared patterns bindings children = some extended) := by
  cases pattern using templateInduction with
  | var name parts => exact Or.inl ⟨name, parts, rfl, by rwa [matchNode_var] at found⟩
  | variadicTrain name mark template =>
      rw [matchNode_variadicTrain] at found
      split at found
      · rename_i same
        obtain ⟨rfl, rfl⟩ := same
        obtain ⟨counted, count, inside⟩ := Option.bind_eq_some_iff.mp found
        exact Or.inr (Or.inr (Or.inl ⟨mark, template, counted, rfl, rfl, count, inside⟩))
      · simp at found
  | other patternKind name patterns notVar plain =>
      by_cases isConst : patternKind = .const
      · subst isConst
        rw [matchNode_const] at found
        split at found
        · rename_i same
          obtain ⟨rfl, rfl⟩ := same
          exact Or.inr (Or.inl ⟨patterns, rfl, rfl, (Option.some.inj found).symm⟩)
        · simp at found
      · rw [matchNode_node _ _ _ _ _ _ _ _ notVar isConst plain] at found
        split at found
        · rename_i same
          obtain ⟨rfl, rfl, lengths⟩ := same
          exact Or.inr (Or.inr (Or.inr
            ⟨patterns, rfl, notVar, isConst, plain, lengths, found⟩))
        · simp at found

theorem matchEach_threads {R : Bindings → Bindings → Prop} (refl : ∀ bindings, R bindings bindings)
    (trans : ∀ first second third, R first second → R second third → R first third)
    (shared : List String) (subjects : List Expr)
    (each : ∀ subject ∈ subjects, ∀ pattern bindings extended,
      matchNode shared pattern bindings subject = some extended → R bindings extended)
    (patterns : List Expr) (bindings extended : Bindings)
    (found : matchEach shared patterns bindings subjects = some extended) :
    R bindings extended := by
  induction subjects generalizing patterns bindings with
  | nil =>
      simp only [matchEach, Option.some.injEq] at found
      exact found ▸ refl bindings
  | cons subject rest ih =>
      cases patterns with
      | nil =>
          simp only [matchEach, Option.some.injEq] at found
          exact found ▸ refl bindings
      | cons pattern others =>
          rw [matchEach_cons] at found
          obtain ⟨first, here, later⟩ := Option.bind_eq_some_iff.mp found
          exact trans bindings first extended (each subject (by simp) pattern bindings first here)
            (ih (fun s member => each s (by simp [member])) others first later)

theorem matchEach_isPartOf (shared : List String) (subjects : List Expr)
    (each : ∀ subject ∈ subjects, ∀ pattern bindings extended,
      matchNode shared pattern bindings subject = some extended → bindings.IsPartOf extended)
    (patterns : List Expr) (bindings extended : Bindings)
    (found : matchEach shared patterns bindings subjects = some extended) :
    bindings.IsPartOf extended :=
  matchEach_threads Bindings.IsPartOf.refl (fun _ _ _ left right => left.trans right) shared
    subjects each patterns bindings extended found

theorem matchNode_isPartOf (shared : List String) (subject : Expr) :
    ∀ pattern bindings extended,
      matchNode shared pattern bindings subject = some extended → bindings.IsPartOf extended := by
  induction subject using Expr.induction with
  | node kind symbol children each =>
      intro pattern bindings extended found
      rcases matchNode_cases found with ⟨name, parts, _, bound⟩ | ⟨parts, _, _, rfl⟩ |
        ⟨mark, template, counted, _, _, count, inside⟩ | ⟨patterns, _, _, _, _, _, inside⟩
      · exact Bindings.isPartOf_of_extend? bound
      · exact Bindings.IsPartOf.refl _
      · exact (Bindings.isPartOf_of_extend? count).trans
          (matchEach_isPartOf shared children each _ _ _ inside)
      · exact matchEach_isPartOf shared children each _ _ _ inside

/-! A match decides whether the expanded pattern becomes the subject. -/

/-- Under a substitution that has what is bound, the pattern's expansion becomes the subject
exactly when the match succeeds with bindings that the substitution has too. -/
def MatchDecides (shared : List String) (count : Nat) (σ : String → Expr)
    (pattern subject : Expr) : Prop :=
  ∀ bindings : Bindings, bindings.AgreesWith σ →
    ((pattern.expandAll shared count).subst σ = subject ↔
      ∃ extended, matchNode shared pattern bindings subject = some extended ∧
        extended.AgreesWith σ)

theorem matchEach_decides {shared : List String} {count : Nat} {σ : String → Expr}
    (patterns subjects : List Expr) (lengths : patterns.length = subjects.length)
    (each : ∀ pattern ∈ patterns, ∀ subject ∈ subjects,
      MatchDecides shared count σ pattern subject)
    (bindings : Bindings) (agrees : bindings.AgreesWith σ) :
    patterns.map (fun pattern => (pattern.expandAll shared count).subst σ) = subjects ↔
      ∃ extended, matchEach shared patterns bindings subjects = some extended ∧
        extended.AgreesWith σ := by
  induction patterns generalizing subjects bindings with
  | nil =>
      obtain rfl := List.length_eq_zero_iff.mp lengths.symm
      simpa [matchEach] using agrees
  | cons pattern others ih =>
      cases subjects with
      | nil => simp at lengths
      | cons subject rest =>
          have first := each pattern (by simp) subject (by simp) bindings agrees
          have later := ih rest (by simpa using lengths)
            (fun p inOthers s inRest => each p (by simp [inOthers]) s (by simp [inRest]))
          rw [List.map_cons, List.cons.injEq, first, matchEach_cons]
          constructor
          · rintro ⟨⟨middle, here, agreesMiddle⟩, below⟩
            obtain ⟨extended, found, agreesExtended⟩ := (later middle agreesMiddle).mp below
            exact ⟨extended, by rw [here, Option.bind_some, found], agreesExtended⟩
          · rintro ⟨extended, found, agreesExtended⟩
            obtain ⟨middle, here, below⟩ := Option.bind_eq_some_iff.mp found
            -- What the first part binds is still bound in the end, so the substitution has it.
            have within := matchEach_isPartOf shared rest
              (fun s _ => matchNode_isPartOf shared s) others middle extended below
            have agreesMiddle := agreesExtended.of_isPartOf within
            exact ⟨⟨middle, here, agreesMiddle⟩,
              (later middle agreesMiddle).mpr ⟨extended, below, agreesExtended⟩⟩

theorem count_eq_of_extend? {σ : String → Expr} {count number : Nat} {bindings counted : Bindings}
    (counts : σ ellipsis = const (toString count))
    (bound : bindings.extend? ellipsis (const (toString number)) = some counted)
    (agrees : counted.AgreesWith σ) : number = count := by
  have same := agrees ellipsis _ (Bindings.find?_of_extend? bound)
  rw [counts, const, const, node.injEq] at same
  exact (Literal.toString_injective same.2.1).symm

theorem matchCopies_decides {shared : List String} {σ : String → Expr} {template : Expr}
    (shaped : template.WellShaped) (plain : template.MarkerFree) (subjects : List Expr)
    (each : ∀ subject ∈ subjects, ∀ pattern : Expr, pattern.WellShaped → pattern.MarkerFree →
      MatchDecides shared subjects.length σ pattern subject)
    (bindings : Bindings) (agrees : bindings.AgreesWith σ) :
    (copies shared template subjects.length).map (subst σ) = subjects ↔
      ∃ extended, matchEach shared (copies shared template subjects.length) bindings subjects =
        some extended ∧ extended.AgreesWith σ := by
  rw [← matchEach_decides _ subjects (length_copies _ _ _)
    (fun part member subject inSubjects =>
      each subject inSubjects part (copies_plain shaped plain member).1
        (copies_plain shaped plain member).2)
    bindings agrees]
  rw [List.map_congr_left fun part member => congrArg (subst σ)
    ((copies_plain shaped plain member).2.expandAll_eq shared subjects.length).symm]

theorem guarded_decides {guard becomes : Prop} [Decidable guard] {found : Option Bindings}
    {σ : String → Expr} (implies : becomes → guard)
    (inside : guard → (becomes ↔ ∃ extended, found = some extended ∧ extended.AgreesWith σ)) :
    becomes ↔ ∃ extended, (if guard then found else none) = some extended ∧
      extended.AgreesWith σ := by
  by_cases holds : guard
  · rw [if_pos holds]
    exact inside holds
  · rw [if_neg holds]
    constructor
    · intro same
      exact absurd (implies same) holds
    · rintro ⟨extended, none, _⟩
      simp at none

section

variable {shared : List String} {count : Nat} {σ : String → Expr} {kind : Kind} {symbol : String}
  {children : List Expr}

theorem matchConst_decides (name : String)
    (leaf : kind = .const → children = []) :
    MatchDecides shared count σ (node .const name []) (node kind symbol children) := by
  intro bindings agrees
  rw [expandAll_node _ _ _ _ _ (by decide) rfl, subst_node _ _ _ _ (by decide), node.injEq,
    matchNode_const]
  apply guarded_decides
  · rintro ⟨sameKind, sameSymbol, _⟩
    exact ⟨sameKind.symm, sameSymbol.symm⟩
  · rintro ⟨rfl, rfl⟩
    rw [leaf rfl]
    simpa using agrees

theorem matchTrain_decides {name mark : String} {template : Expr}
    (shaped : (node .train name [node .variadic mark [template]]).WellShaped)
    (flat : (node .train name [node .variadic mark [template]]).FlatTemplates)
    (counted : σ ellipsis = const (toString count))
    (each : ∀ child ∈ children, ∀ pattern : Expr, pattern.WellShaped → pattern.MarkerFree →
      MatchDecides shared count σ pattern child) :
    MatchDecides shared count σ (node .train name [node .variadic mark [template]])
      (node kind symbol children) := by
  intro bindings agrees
  obtain ⟨templateShaped, templatePlain⟩ := template_of_variadicTrain shaped flat
  rw [expandAll_variadicTrain, subst_node _ _ _ _ (by decide), matchNode_variadicTrain, node.injEq]
  apply guarded_decides
  · rintro ⟨sameKind, sameSymbol, _⟩
    exact ⟨sameKind.symm, sameSymbol.symm⟩
  · rintro ⟨rfl, rfl⟩
    simp only [true_and]
    -- The substitution has one value for the ellipsis, so all trains get that number of copies.
    by_cases sameCount : children.length = count
    · subst sameCount
      obtain ⟨bound, counts, agreesBound⟩ :=
        (Bindings.extend?_agrees ellipsis _ agrees).mp counted
      rw [counts, Option.bind_some]
      exact matchCopies_decides templateShaped templatePlain children each bound agreesBound
    · constructor
      · intro equal
        have lengths := congrArg List.length equal
        simp only [List.length_map, length_copies] at lengths
        exact absurd lengths.symm sameCount
      · rintro ⟨extended, found, agreesExtended⟩
        obtain ⟨bound, counts, below⟩ := Option.bind_eq_some_iff.mp found
        have within := matchEach_isPartOf shared children
          (fun s _ => matchNode_isPartOf shared s) _ bound extended below
        exact absurd (count_eq_of_extend? counted counts (agreesExtended.of_isPartOf within))
          sameCount

theorem matchOther_decides {patternKind : Kind} {name : String} {patterns : List Expr}
    (notVar : patternKind ≠ .var) (notConst : patternKind ≠ .const)
    (plain : (node patternKind name patterns).template? = none)
    (each : ∀ pattern ∈ patterns, ∀ child ∈ children, MatchDecides shared count σ pattern child) :
    MatchDecides shared count σ (node patternKind name patterns) (node kind symbol children) := by
  intro bindings agrees
  rw [expandAll_node _ _ _ _ _ notVar plain, subst_node _ _ _ _ notVar, node.injEq,
    matchNode_node _ _ _ _ _ _ _ _ notVar notConst plain]
  apply guarded_decides
  · rintro ⟨sameKind, sameSymbol, equal⟩
    have lengths := congrArg List.length equal
    simp only [List.length_map] at lengths
    exact ⟨sameKind, sameSymbol, lengths⟩
  · rintro ⟨rfl, rfl, lengths⟩
    simp only [true_and, List.map_map]
    exact matchEach_decides patterns children lengths each bindings agrees

end

theorem matchNode_decides (shared : List String) (count : Nat) (σ : String → Expr)
    (subject : Expr) (subjectShaped : subject.WellShaped) :
    ∀ pattern : Expr, pattern.WellShaped → pattern.FlatTemplates →
      (pattern.MarkerFree ∨ σ ellipsis = const (toString count)) →
        MatchDecides shared count σ pattern subject := by
  -- On the subject: the copies of a template are no parts of the pattern.
  induction subject using Expr.induction with
  | node kind symbol children each =>
      intro pattern shaped flat counts
      have inner : ∀ child ∈ children, ∀ part : Expr, part.WellShaped → part.FlatTemplates →
          (part.MarkerFree ∨ σ ellipsis = const (toString count)) →
            MatchDecides shared count σ part child :=
        fun child member => each child member (subjectShaped.child member)
      cases pattern using templateInduction with
      | var name parts =>
          intro bindings agrees
          rw [expandAll_var, subst_var, matchNode_var]
          exact Bindings.extend?_agrees name _ agrees
      | variadicTrain name mark template =>
          have counted : σ ellipsis = const (toString count) := by
            rcases counts with plain | counted
            · simp [markerFree_node] at plain
            · exact counted
          exact matchTrain_decides shaped flat counted fun child member part partShaped partPlain =>
            inner child member part partShaped partPlain.flatTemplates (Or.inl partPlain)
      | other patternKind name patterns notVar plain =>
          by_cases isConst : patternKind = .const
          · subst isConst
            obtain rfl := shaped.children_eq_nil (Or.inl rfl)
            apply matchConst_decides
            rintro rfl
            exact subjectShaped.children_eq_nil (Or.inl rfl)
          · apply matchOther_decides notVar isConst plain
            intro part member child inChildren
            refine inner child inChildren part (shaped.child member) (flat.child member) ?_
            exact counts.imp_left fun free => ((markerFree_node _ _ _).mp free).2 part member

end Stepwise.Expr
