import Stepwise.Proofs.Matching.Exact

/-!
The names that a match binds: the variables of a pattern without markers in order of first
occurrence, and in general the fixed variables, the ellipsis, and the names in the copies.
-/

namespace Stepwise.Expr

mutual

/-- What a match binds when variadic trains have `count` copies, with repetitions. -/
def boundNames (shared : List String) (count : Nat) : Expr → List String
  | node .var symbol _ => [symbol]
  | node .train _ [node .variadic _ [template]] =>
      ellipsis :: (copies shared template count).flatMap (occurrences false)
  | node _ _ children => boundNamesEach shared count children

def boundNamesEach (shared : List String) (count : Nat) : List Expr → List String
  | [] => []
  | child :: rest => boundNames shared count child ++ boundNamesEach shared count rest

end

theorem boundNamesEach_eq_flatMap (shared : List String) (count : Nat) (es : List Expr) :
    boundNamesEach shared count es = es.flatMap (boundNames shared count) := by
  induction es with
  | nil => rfl
  | cons e es ih => simp [boundNamesEach, ih]

@[simp] theorem boundNames_var (shared : List String) (count : Nat) (symbol : String)
    (children : List Expr) : (node .var symbol children).boundNames shared count = [symbol] := by
  rw [boundNames]

@[simp] theorem boundNames_variadicTrain (shared : List String) (count : Nat)
    (symbol mark : String) (template : Expr) :
    (node .train symbol [node .variadic mark [template]]).boundNames shared count =
      ellipsis :: (copies shared template count).flatMap (occurrences false) := by
  rw [boundNames]

theorem boundNames_node (shared : List String) (count : Nat) (kind : Kind) (symbol : String)
    (children : List Expr) (notVar : kind ≠ .var)
    (plain : (node kind symbol children).template? = none) :
    (node kind symbol children).boundNames shared count =
      children.flatMap (boundNames shared count) := by
  rw [← boundNamesEach_eq_flatMap, boundNames]
  · exact notVar
  · rintro mark template rfl rfl
    simp [template?] at plain

theorem MarkerFree.boundNames_eq {e : Expr} (plain : e.MarkerFree) (shared : List String)
    (count : Nat) : e.boundNames shared count = e.occurrences false := by
  induction e using Expr.induction with
  | node kind symbol children each =>
      obtain ⟨_, inner⟩ := (markerFree_node _ _ _).mp plain
      by_cases isVar : kind = .var
      · subst isVar
        simp
      · rw [boundNames_node _ _ _ _ _ isVar plain.template?_eq_none,
          occurrences_node _ _ _ _ isVar, List.flatMap_def,
          List.map_congr_left fun child member => each child member (inner child member)]
        simp [List.flatMap_def]

theorem boundNames_congr {shared others : List String} {e : Expr}
    (agree : ∀ name ∈ e.occurrences false, (name ∈ shared ↔ name ∈ others)) (count : Nat) :
    e.boundNames shared count = e.boundNames others count := by
  induction e using templateInduction with
  | var symbol children => simp
  | variadicTrain symbol mark template =>
      rw [boundNames_variadicTrain, boundNames_variadicTrain, copies_congr]
      intro name occurs
      apply agree
      exact mem_occurrences_of_template occurs
  | other kind symbol children notVar plain each =>
      rw [boundNames_node _ _ _ _ _ notVar plain, boundNames_node _ _ _ _ _ notVar plain,
        List.flatMap_def, List.flatMap_def]
      congr 1
      apply List.map_congr_left
      intro child member
      exact each child member
        fun name occurs => agree name (mem_occurrences_of_child notVar member occurs)

theorem fixed_mem_boundNames (shared : List String) (count : Nat) (e : Expr) (name : String)
    (fixed : name ∈ e.occurrences true) : name ∈ e.boundNames shared count := by
  induction e using templateInduction with
  | var symbol children => simpa using fixed
  | variadicTrain symbol mark template =>
      simp [occurrences_node] at fixed
  | other kind symbol children notVar plain each =>
      rw [occurrences_node _ _ _ _ notVar] at fixed
      rw [boundNames_node _ _ _ _ _ notVar plain]
      split at fixed
      · simp at fixed
      · obtain ⟨child, member, inside⟩ := List.mem_flatMap.mp fixed
        exact List.mem_flatMap.mpr ⟨child, member, each child member inside⟩

theorem boundNames_cases {shared : List String} {count : Nat} {e : Expr} (shaped : e.WellShaped)
    (root : e.isMarker = false) {name : String} (bound : name ∈ e.boundNames shared count) :
    name = ellipsis ∨ name ∈ e.occurrences true ∨
      ∃ original ∈ e.occurrences false, ∃ index < count,
        copyName shared ((index + 1 : Nat) : Int) original = name := by
  induction e using templateInduction with
  | var symbol children => exact Or.inr (Or.inl (by simpa using bound))
  | variadicTrain symbol mark template =>
      rw [boundNames_variadicTrain, List.mem_cons, List.mem_flatMap] at bound
      rcases bound with isEllipsis | ⟨part, member, inside⟩
      · exact Or.inl isEllipsis
      · obtain ⟨index, less, rfl⟩ := (mem_copies _ _ _ _).mp member
        rw [occurrences_rename, List.mem_map] at inside
        obtain ⟨original, occurs, same⟩ := inside
        exact Or.inr (Or.inr ⟨original, mem_occurrences_of_template occurs, index, less, same⟩)
  | other kind symbol children notVar plain each =>
      rw [boundNames_node _ _ _ _ _ notVar plain] at bound
      obtain ⟨child, member, inside⟩ := List.mem_flatMap.mp bound
      rcases each child member (shaped.child member)
        (shaped.child_isMarker_eq_false plain member) inside with
        isEllipsis | fixed | ⟨original, occurs, index, less, same⟩
      · exact Or.inl isEllipsis
      · refine Or.inr (Or.inl ?_)
        rw [occurrences_node _ _ _ _ notVar, if_neg (by simpa using root)]
        exact List.mem_flatMap.mpr ⟨child, member, fixed⟩
      · exact Or.inr (Or.inr
          ⟨original, mem_occurrences_of_child notVar member occurs, index, less, same⟩)

def MatchBinds (shared : List String) (count : Nat) (σ : String → Expr)
    (pattern subject : Expr) : Prop :=
  ∀ bindings extended : Bindings, matchNode shared pattern bindings subject = some extended →
    extended.AgreesWith σ →
      extended.keys = OrderedSet.insertAll bindings.keys (pattern.boundNames shared count)

theorem matchEach_binds {shared : List String} {count : Nat} {σ : String → Expr}
    (patterns subjects : List Expr) (lengths : patterns.length = subjects.length)
    (each : ∀ pattern ∈ patterns, ∀ subject ∈ subjects, MatchBinds shared count σ pattern subject)
    {bindings extended : Bindings}
    (found : matchEach shared patterns bindings subjects = some extended)
    (agrees : extended.AgreesWith σ) :
    extended.keys =
      OrderedSet.insertAll bindings.keys (patterns.flatMap (boundNames shared count)) := by
  induction patterns generalizing subjects bindings with
  | nil =>
      obtain rfl := List.length_eq_zero_iff.mp lengths.symm
      simp only [matchEach, Option.some.injEq] at found
      simp [found, OrderedSet.insertAll]
  | cons pattern others ih =>
      cases subjects with
      | nil => simp at lengths
      | cons subject rest =>
          rw [matchEach_cons] at found
          obtain ⟨middle, here, below⟩ := Option.bind_eq_some_iff.mp found
          have within := matchEach_isPartOf shared rest
            (fun s _ => matchNode_isPartOf shared s) others middle extended below
          have first := each pattern (by simp) subject (by simp) bindings middle here
            (agrees.of_isPartOf within)
          have later := ih rest (by simpa using lengths)
            (fun p inOthers s inRest => each p (by simp [inOthers]) s (by simp [inRest])) below
          rw [later, first, List.flatMap_cons, OrderedSet.insertAll_append]

theorem matchCopies_binds {shared : List String} {σ : String → Expr} {template : Expr}
    (shaped : template.WellShaped) (plain : template.MarkerFree) (subjects : List Expr)
    (each : ∀ subject ∈ subjects, ∀ pattern : Expr, pattern.WellShaped → pattern.MarkerFree →
      MatchBinds shared subjects.length σ pattern subject)
    {bindings extended : Bindings}
    (found : matchEach shared (copies shared template subjects.length) bindings subjects =
      some extended)
    (agrees : extended.AgreesWith σ) :
    extended.keys = OrderedSet.insertAll bindings.keys
      ((copies shared template subjects.length).flatMap (occurrences false)) := by
  rw [matchEach_binds _ subjects (length_copies _ _ _)
    (fun part member subject inSubjects =>
      each subject inSubjects part (copies_plain shaped plain member).1
        (copies_plain shaped plain member).2) found agrees]
  rw [List.flatMap_def, List.flatMap_def, List.map_congr_left fun part member =>
    (copies_plain shaped plain member).2.boundNames_eq shared subjects.length]

theorem matchNode_binds (shared : List String) (count : Nat) (σ : String → Expr)
    (subject : Expr) :
    ∀ pattern : Expr, pattern.WellShaped → pattern.FlatTemplates →
      (pattern.MarkerFree ∨ σ ellipsis = const (toString count)) →
        MatchBinds shared count σ pattern subject := by
  induction subject using Expr.induction with
  | node kind symbol children each =>
      intro pattern shaped flat counts bindings extended found agrees
      rcases matchNode_cases found with ⟨name, parts, rfl, bound⟩ | ⟨parts, rfl, rfl, rfl⟩ |
        ⟨mark, template, counted, rfl, rfl, number, inside⟩ |
        ⟨patterns, rfl, notVar, _, plain, lengths, inside⟩
      · rw [Bindings.keys_of_extend? bound, boundNames_var]
        rfl
      · obtain rfl := shaped.children_eq_nil (Or.inl rfl)
        rw [boundNames_node _ _ _ _ _ (by decide) rfl]
        rfl
      · obtain ⟨templateShaped, templatePlain⟩ := template_of_variadicTrain shaped flat
        have isCount : σ ellipsis = const (toString count) := by
          rcases counts with free | isCount
          · simp [markerFree_node] at free
          · exact isCount
        have within := matchEach_isPartOf shared children
          (fun s _ => matchNode_isPartOf shared s) _ counted extended inside
        -- An earlier train may have bound the ellipsis, but only to the same number.
        obtain rfl := count_eq_of_extend? isCount number (agrees.of_isPartOf within)
        rw [matchCopies_binds templateShaped templatePlain children
          (fun child member part partShaped partPlain =>
            each child member part partShaped partPlain.flatTemplates (Or.inl partPlain))
          inside agrees, Bindings.keys_of_extend? number, boundNames_variadicTrain]
        rfl
      · rw [boundNames_node _ _ _ _ _ notVar plain]
        refine matchEach_binds patterns children lengths ?_ inside agrees
        intro part member child inChildren
        refine each child inChildren part (shaped.child member) (flat.child member) ?_
        exact counts.imp_left fun free => ((markerFree_node _ _ _).mp free).2 part member

end Stepwise.Expr
