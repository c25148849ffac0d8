import Stepwise.Proofs.Matching.Instance
import Stepwise.Proofs.NormalForm.Groups

/-!
An instance of an instance. One expansion after another is an expansion among trees without trains
of one term and among names that stay apart: to the number of copies of the second, or, where the
second has but one copy and that a marker, to that of the first.
-/

namespace Stepwise.Expr

/-! Where markers come from. -/

theorem image_isMarker_eq_false {kind : Kind} {symbol : String} {children : List Expr}
    (groups : (node kind symbol children).Groups several)
    (plain : (node kind symbol children).template? = none) {f : Expr → Expr}
    (image : (node kind symbol (children.map f)).WellShaped) {child : Expr}
    (member : child ∈ children) : (f child).isMarker = false := by
  rw [Bool.eq_false_iff]
  intro marks
  obtain ⟨rfl, one⟩ := ((shapeFault?_eq_none_iff _ _).mp ((wellShaped_node _ _ _).mp image).1).2
    (f child) (List.mem_map_of_mem member) marks
  have isGroup : (node .train symbol children).isGroupOf symbol = true :=
    (isGroupOf_iff _ _ _ _).mpr ⟨Or.inr rfl, rfl, plain⟩
  have enough : 2 ≤ children.length := of_decide_eq_true (groups.here isGroup)
  rw [List.length_map] at one
  omega

theorem MarkerFree.occurrences_eq {e : Expr} (free : e.MarkerFree) :
    e.occurrences true = e.occurrences false := by
  induction e using Expr.induction with
  | node kind symbol children each =>
      obtain ⟨notMarker, inner⟩ := (markerFree_node _ _ _).mp free
      by_cases isVar : kind = .var
      · subst isVar
        simp
      · rw [occurrences_node _ _ _ _ isVar, occurrences_node _ _ _ _ isVar, List.flatMap_def,
          List.flatMap_def, List.map_congr_left fun child member => each child member
            (inner child member)]
        simp [notMarker]

section

variable {shared : List String} {count : Nat} {σ : String → Expr}

theorem values_of_fixed {e : Expr} (groups : e.Groups several)
    (image : ((e.expandAll shared count).subst σ).WellShaped)
    (root : ((e.expandAll shared count).subst σ).isMarker = false) {name : String}
    (fixed : name ∈ e.occurrences true) : (σ name).isMarker = false := by
  induction e using templateInduction with
  | var symbol children =>
      rw [expandAll_var, subst_var] at root
      obtain rfl : name = symbol := by simpa using fixed
      exact root
  | variadicTrain symbol mark template => simp [occurrences_node] at fixed
  | other kind symbol children notVar plain each =>
      rw [expandAll_node _ _ _ _ _ notVar plain, subst_node _ _ _ _ notVar, List.map_map] at image
      rw [occurrences_node _ _ _ _ notVar] at fixed
      split at fixed
      · simp at fixed
      · obtain ⟨child, member, inside⟩ := List.mem_flatMap.mp fixed
        exact each child member (groups.child member) (image.child (List.mem_map_of_mem member))
          (image_isMarker_eq_false groups plain image member) inside

theorem values_of_markerFree {e : Expr} (free : e.MarkerFree) (groups : e.Groups several)
    (image : (e.subst σ).WellShaped) (root : (e.subst σ).isMarker = false) {name : String}
    (occurs : name ∈ e.occurrences false) : (σ name).isMarker = false := by
  rw [← free.expandAll_eq [] 1] at image root
  exact values_of_fixed groups image root (free.occurrences_eq ▸ occurs)

theorem count_of_marker {e : Expr} (shaped : e.WellShaped) (flat : e.FlatTemplates)
    (groups : e.Groups several) (image : ((e.expandAll shared count).subst σ).WellShaped)
    (root : ((e.expandAll shared count).subst σ).isMarker = false) {name : String}
    (occurs : name ∈ (e.expandAll shared count).occurrences false)
    (marks : (σ name).isMarker = true) : count = 1 := by
  induction e using templateInduction with
  | var symbol children =>
      rw [expandAll_var] at occurs root
      rw [subst_var] at root
      obtain rfl : name = symbol := by simpa using occurs
      exact absurd (marks.symm.trans root) (by decide)
  | variadicTrain symbol mark template =>
      obtain ⟨templateShaped, free⟩ := template_of_variadicTrain shaped flat
      have templateGroups : template.Groups several :=
        (groups.child (List.mem_singleton_self _)).child (List.mem_singleton_self _)
      rw [expandAll_variadicTrain] at occurs
      rw [expandAll_variadicTrain, subst_node _ _ _ _ (by decide)] at image
      obtain ⟨part, member, inside⟩ := exists_child_of_mem_occurrences (by decide) occurs
      have inImage := List.mem_map_of_mem (f := subst σ) member
      cases partMarks : (part.subst σ).isMarker with
      | true =>
          have alone := ((shapeFault?_eq_none_iff _ _).mp
            ((wellShaped_node _ _ _).mp image).1).2 _ inImage partMarks
          simpa using alone.2
      | false =>
          obtain ⟨index, _, rfl⟩ := (mem_copies _ _ _ _).mp member
          have partImage := image.child inImage
          rw [subst_rename] at partImage partMarks
          rw [occurrences_rename, List.mem_map] at inside
          obtain ⟨original, inTemplate, rfl⟩ := inside
          have known := values_of_markerFree free templateGroups partImage partMarks inTemplate
          exact absurd (marks.symm.trans known) (by decide)
  | other kind symbol children notVar plain each =>
      obtain ⟨child, inChildren, inside⟩ := exists_child_of_mem_expandAll notVar plain occurs
      rw [expandAll_node _ _ _ _ _ notVar plain, subst_node _ _ _ _ notVar, List.map_map] at image
      exact each child inChildren (shaped.child inChildren) (flat.child inChildren)
        (groups.child inChildren) (image.child (List.mem_map_of_mem inChildren))
        (image_isMarker_eq_false groups plain image inChildren) inside

end

/-! Where no variable becomes a marker, the copies are those of the second expansion. -/

theorem isMarker_subst_eq_false {e : Expr} (free : e.MarkerFree) {σ : String → Expr}
    (values : ∀ name ∈ e.occurrences false, (σ name).isMarker = false) :
    (e.subst σ).isMarker = false := by
  obtain ⟨kind, symbol, children⟩ := e
  by_cases isVar : kind = .var
  · subst isVar
    rw [subst_var]
    exact values symbol (by simp)
  · rw [subst_node _ _ _ _ isVar]
    simpa using ((markerFree_node _ _ _).mp free).1

theorem expandAll_subst {e : Expr} (free : e.MarkerFree) {σ : String → Expr}
    (values : ∀ name ∈ e.occurrences false, (σ name).isMarker = false) (shared : List String)
    (count : Nat) :
    (e.subst σ).expandAll shared count = e.subst fun name => (σ name).expandAll shared count := by
  induction e using Expr.induction with
  | node kind symbol children each =>
      by_cases isVar : kind = .var
      · subst isVar
        rw [subst_var, subst_var]
      · have inner : ∀ child ∈ children, child.MarkerFree ∧
            ∀ name ∈ child.occurrences false, (σ name).isMarker = false := fun child member =>
          ⟨((markerFree_node _ _ _).mp free).2 child member,
            fun name occurs => values name (mem_occurrences_of_child isVar member occurs)⟩
        have plain : (node kind symbol (children.map (subst σ))).template? = none := by
          apply template?_of_no_marker
          simp only [List.mem_map]
          rintro _ ⟨child, member, rfl⟩
          exact isMarker_subst_eq_false (inner child member).1 (inner child member).2
        rw [subst_node _ _ _ _ isVar, subst_node _ _ _ _ isVar,
          expandAll_node _ _ _ _ _ isVar plain, List.map_map,
          ← List.map_congr_left fun child member =>
            each child member (inner child member).1 (inner child member).2]
        rfl

section

variable {a b c : Expr} {n k : Nat} {σ τ : String → Expr}

def expanding (shared : List String) (count : Nat) (σ τ : String → Expr) (name : String) : Expr :=
  ((σ name).expandAll shared count).subst τ

theorem subst_expanding {e : Expr} (free : e.MarkerFree)
    (values : ∀ name ∈ e.occurrences false, (σ name).isMarker = false) (shared : List String)
    (count : Nat) :
    e.subst (expanding shared count σ τ) = ((e.subst σ).expandAll shared count).subst τ := by
  rw [expandAll_subst free values, subst_subst]
  rfl

theorem expands_of_values (shaped : c.WellShaped) (root : c.isMarker = false)
    (flat : c.FlatTemplates) (first : a.Expands b n τ) (second : b.Expands c k σ)
    (matchValues : ∀ name ∈ (c.expandAll c.fixedVariables k).occurrences false,
      (σ name).isMarker = false)
    (values : ∀ name ∈ (c.expandAll (c.boundNames c.fixedVariables k) k).occurrences false,
      (σ name).isMarker = false) :
    a.Expands c k (expanding b.fixedVariables n σ τ) where
  positive := second.positive
  counted := by
    refine second.counted.imp_right fun ⟨readable, counts⟩ => ⟨readable, ?_⟩
    rw [expanding, counts, const, expandAll_node _ _ _ _ _ (by decide) rfl,
      subst_node _ _ _ _ (by decide)]
    rfl
  matched := by
    rw [subst_expanding (flat.markerFree_expandAll shaped root _ _) matchValues, second.matched,
      first.matched]
  rebuilt := by
    rw [subst_expanding (flat.markerFree_expandAll shaped root _ _) values, second.rebuilt,
      first.matched]

end

/-! Where a copy becomes a marker, the copies are those of the first expansion. -/

def numbered? (names : List String) (count : Nat) (name : String) : Option (String × Nat) :=
  (names.flatMap fun original => (List.range count).map fun index => (original, index + 1)).find?
    fun copy => name = copy.1 ++ "_" ++ toString copy.2

theorem numbered?_copy {names : List String} {count : Nat} {name : String} (member : name ∈ names)
    {index : Nat} (less : index < count) :
    numbered? names count (name ++ "_" ++ toString (index + 1)) = some (name, index + 1) := by
  unfold numbered?
  cases found : List.find? _ _ with
  | none =>
      have absent := List.find?_eq_none.mp found (name, index + 1)
        (List.mem_flatMap.mpr ⟨name, member, List.mem_map_of_mem (List.mem_range.mpr less)⟩)
      simp at absent
  | some copy =>
      have same := List.find?_some found
      rw [decide_eq_true_eq] at same
      obtain ⟨sameName, sameNumber⟩ := numbered_injective same
      exact congrArg some (Prod.ext sameName.symm sameNumber.symm)

theorem Separate.numbered?_eq_none {names : List String} (separate : Separate names) {name : String}
    (member : name ∈ names) (count : Nat) : numbered? names count name = none := by
  refine List.find?_eq_none.mpr fun copy inCopies => ?_
  obtain ⟨original, known, inRange⟩ := List.mem_flatMap.mp inCopies
  obtain ⟨index, _, rfl⟩ := List.mem_map.mp inRange
  simpa using separate.2 original known name member (index + 1)

/-- Numbered copies of names have one kind of value, and all other names another one. -/
def spread (names : List String) (count : Nat) (copied : String → Nat → Expr)
    (others : String → Expr) (name : String) : Expr :=
  match numbered? names count name with
  | some (original, index) => copied original index
  | none => others name

def markerCopy (shared : List String) (τ : String → Expr) (index : Nat) : Expr → Expr
  | node _ _ [template] => (template.rename (copyName shared (index : Int))).subst τ
  | other => other

section

variable {names fixed shared : List String} {n : Nat} {σ τ ρ : String → Expr}

theorem exists_marker_of_groups {symbol : String} {term : Expr}
    (groups : (node .train symbol [term]).Groups several) :
    ∃ mark template, term = node .variadic mark [template] := by
  by_cases plain : (node .train symbol [term]).template? = none
  · have isGroup : (node .train symbol [term]).isGroupOf symbol = true :=
      (isGroupOf_iff _ _ _ _).mpr ⟨Or.inr rfl, rfl, plain⟩
    exact absurd (groups.here isGroup) (by simp [several])
  · unfold template? at plain
    split at plain
    · rename_i same
      obtain ⟨_, _, terms⟩ := node.inj same
      exact ⟨_, _, List.singleton_inj.mp terms⟩
    · exact absurd rfl plain

theorem eq_var_of_subst_marker {e : Expr} (shaped : e.WellShaped) (free : e.MarkerFree)
    {mark : String} {children : List Expr} (same : e.subst σ = node .variadic mark children) :
    ∃ name, e = var name ∧ σ name = node .variadic mark children := by
  obtain ⟨kind, name, parts⟩ := e
  by_cases isVar : kind = .var
  · subst isVar
    obtain rfl := shaped.children_eq_nil (Or.inr rfl)
    exact ⟨name, rfl, by rwa [subst_var] at same⟩
  · rw [subst_node _ _ _ _ isVar] at same
    exact absurd (node.inj same).1 ((markerFree_node _ _ _).mp free).1

theorem exists_var_of_single {symbol mark : String} {template : Expr}
    (shaped : (node .train symbol [node .variadic mark [template]]).WellShaped)
    (flat : (node .train symbol [node .variadic mark [template]]).FlatTemplates)
    (groups : (((node .train symbol [node .variadic mark [template]]).expandAll fixed 1).subst
      σ).Groups several) :
    ∃ name inner part, template = var name ∧
      σ (copyName fixed 1 name) = node .variadic inner [part] ∧
      ((node .train symbol [node .variadic mark [template]]).expandAll fixed 1).subst σ =
        node .train symbol [node .variadic inner [part]] := by
  obtain ⟨templateShaped, free⟩ := template_of_variadicTrain shaped flat
  have single : ((node .train symbol [node .variadic mark [template]]).expandAll fixed 1).subst σ =
      node .train symbol [(template.rename (copyName fixed 1)).subst σ] := by
    rw [expandAll_variadicTrain, subst_node _ _ _ _ (by decide)]
    rfl
  rw [single] at groups
  obtain ⟨inner, part, became⟩ := exists_marker_of_groups groups
  rw [became] at single
  rw [subst_rename] at became
  obtain ⟨name, rfl, value⟩ := eq_var_of_subst_marker templateShaped free became
  exact ⟨name, inner, part, rfl, value, single⟩

theorem subst_spread_train {symbol mark inner name : String} {part : Expr} (unshared : name ∉ fixed)
    (copied : ∀ index < n, ρ (name ++ "_" ++ toString (index + 1)) =
      markerCopy shared τ (index + 1) (node .variadic inner [part])) :
    ((node .train symbol [node .variadic mark [var name]]).expandAll fixed n).subst ρ =
      ((node .train symbol [node .variadic inner [part]]).expandAll shared n).subst τ := by
  rw [expandAll_variadicTrain, expandAll_variadicTrain, subst_node _ _ _ _ (by decide),
    subst_node _ _ _ _ (by decide), copies_eq_map, copies_eq_map, List.map_map, List.map_map]
  congr 1
  apply List.map_congr_left
  intro index less
  rw [Function.comp_apply, var, rename_var, subst_var, copyName_of_not_mem unshared]
  exact copied index (List.mem_range.mp less)

theorem subst_spread
    (others : ∀ name ∈ names, ρ name = expanding shared n σ τ name)
    (copied : ∀ name ∈ names, ∀ index < n, ρ (name ++ "_" ++ toString (index + 1)) =
      markerCopy shared τ (index + 1) (σ (copyName fixed 1 name)))
    (unmarked : ∀ name ∈ fixed, (σ name).isMarker = false) {e : Expr} (shaped : e.WellShaped)
    (flat : e.FlatTemplates) (groups : e.Groups several)
    (within : ∀ name ∈ e.occurrences false, name ∈ names)
    (image : ((e.expandAll fixed 1).subst σ).WellShaped)
    (imageGroups : ((e.expandAll fixed 1).subst σ).Groups several) :
    (e.expandAll fixed n).subst ρ =
      (((e.expandAll fixed 1).subst σ).expandAll shared n).subst τ := by
  induction e using templateInduction with
  | var symbol children =>
      rw [expandAll_var, expandAll_var, subst_var, subst_var, others symbol (within symbol (by simp))]
      rfl
  | variadicTrain symbol mark template =>
      obtain ⟨name, inner, part, rfl, value, became⟩ := exists_var_of_single shaped flat imageGroups
      have known : name ∈ names := within name (mem_occurrences_of_template (by simp [var]))
      have unshared : name ∉ fixed := by
        intro member
        have marks := unmarked name member
        rw [copyName_of_mem member] at value
        simp [value] at marks
      rw [became]
      refine subst_spread_train unshared fun index less => ?_
      rw [← value]
      exact copied name known index less
  | other kind symbol children notVar plain each =>
      rw [expandAll_node _ _ _ _ _ notVar plain, subst_node _ _ _ _ notVar, List.map_map]
        at image imageGroups
      have imagePlain : (node kind symbol
          (children.map (subst σ ∘ expandAll fixed 1))).template? = none := by
        apply template?_of_no_marker
        simp only [List.mem_map]
        rintro _ ⟨child, member, rfl⟩
        exact image_isMarker_eq_false groups plain image member
      have inner : ∀ child ∈ children, _ := fun child member =>
        each child member (shaped.child member) (flat.child member) (groups.child member)
          (fun name occurs => within name (mem_occurrences_of_child notVar member occurs))
          (image.child (List.mem_map_of_mem member))
          (imageGroups.child (List.mem_map_of_mem member))
      rw [expandAll_node _ _ _ _ _ notVar plain, expandAll_node _ _ _ _ _ notVar plain,
        subst_node _ _ _ _ notVar, subst_node _ _ _ _ notVar, List.map_map, List.map_map,
        expandAll_node _ _ _ _ _ notVar imagePlain, subst_node _ _ _ _ notVar, List.map_map,
        List.map_map]
      exact congrArg _ (List.map_congr_left inner)

end

section

variable {a b c : Expr} {n k : Nat} {σ τ : String → Expr}

def respread (b c : Expr) (n : Nat) (σ τ : String → Expr) : String → Expr :=
  spread c.variableNames n
    (fun name index => markerCopy b.fixedVariables τ index (σ (copyName c.fixedVariables 1 name)))
    (expanding b.fixedVariables n σ τ)

theorem subst_respread (middleShaped : b.WellShaped) (middleRoot : b.isMarker = false)
    (middleGroups : b.Groups several) (shaped : c.WellShaped) (flat : c.FlatTemplates)
    (groups : c.Groups several) (separate : Separate c.variableNames) (first : a.Expands b n τ)
    (second : b.Expands c 1 σ) :
    (c.expandAll c.fixedVariables n).subst (respread b c n σ τ) = a := by
  have known (name : String) (occurs : name ∈ c.occurrences false) : name ∈ c.variableNames :=
    (mem_variableNames c name).mpr occurs
  have image : ((c.expandAll c.fixedVariables 1).subst σ).WellShaped :=
    second.matched.symm ▸ middleShaped
  have imageGroups : ((c.expandAll c.fixedVariables 1).subst σ).Groups several :=
    second.matched.symm ▸ middleGroups
  have imageRoot : ((c.expandAll c.fixedVariables 1).subst σ).isMarker = false :=
    second.matched.symm ▸ middleRoot
  have others (name : String) (member : name ∈ c.variableNames) :
      respread b c n σ τ name = expanding b.fixedVariables n σ τ name := by
    rw [respread, spread, separate.numbered?_eq_none member n]
  have copied (name : String) (member : name ∈ c.variableNames) (index : Nat) (less : index < n) :
      respread b c n σ τ (name ++ "_" ++ toString (index + 1)) =
        markerCopy b.fixedVariables τ (index + 1) (σ (copyName c.fixedVariables 1 name)) := by
    rw [respread, spread, numbered?_copy member less]
  have unmarked (name : String) (fixed : name ∈ c.fixedVariables) : (σ name).isMarker = false :=
    values_of_fixed groups image imageRoot ((mem_fixedVariables c name).mp fixed)
  calc (c.expandAll c.fixedVariables n).subst (respread b c n σ τ)
      = (((c.expandAll c.fixedVariables 1).subst σ).expandAll b.fixedVariables n).subst τ :=
        subst_spread others copied unmarked shaped flat groups known image imageGroups
    _ = a := by rw [second.matched, first.matched]

theorem expandAll_boundNames (shaped : c.WellShaped) (root : c.isMarker = false)
    (separate : Separate c.variableNames) (count : Nat) :
    c.expandAll (c.boundNames c.fixedVariables count) count =
      c.expandAll c.fixedVariables count :=
  expandAll_congr (fun name occurs => mem_boundNames_iff_fixed shaped root separate
    (fun _ member => member) ((mem_variableNames c name).mpr occurs) count) count

theorem expands_of_single (middleShaped : b.WellShaped) (middleRoot : b.isMarker = false)
    (middleGroups : b.Groups several) (shaped : c.WellShaped) (root : c.isMarker = false)
    (flat : c.FlatTemplates) (groups : c.Groups several) (separate : Separate c.variableNames)
    (first : a.Expands b n τ) (second : b.Expands c 1 σ) (readable : Literal.IsReadable n) :
    a.Expands c n (counting n (respread b c n σ τ)) := by
  have image : (c.expandAll c.fixedVariables n).subst (counting n (respread b c n σ τ)) = a := by
    rw [subst_counting (ellipsis_not_mem_expandAll separate.1 _ _)]
    exact subst_respread middleShaped middleRoot middleGroups shaped flat groups separate first second
  refine ⟨first.positive, Or.inr ⟨readable, counting_ellipsis _ _⟩, image, ?_⟩
  rw [expandAll_boundNames shaped root separate, image]

theorem MarkerFree.value_of_subst {e : Expr} (free : (e.subst σ).MarkerFree) {name : String}
    (occurs : name ∈ e.occurrences false) : (σ name).MarkerFree := by
  induction e using Expr.induction with
  | node kind symbol children each =>
      by_cases isVar : kind = .var
      · subst isVar
        obtain rfl : name = symbol := by simpa using occurs
        rwa [subst_var] at free
      · rw [subst_node _ _ _ _ isVar, markerFree_node] at free
        obtain ⟨child, member, inside⟩ := exists_child_of_mem_occurrences isVar occurs
        exact each child member (free.2 _ (List.mem_map_of_mem member)) inside

/-- The instances of `middle` are instances of `pattern` if `middle` is one: where it has no
markers, and otherwise where groups have two or more terms and a pattern with markers keeps its
names apart. -/
def Composes (middle pattern : Expr) : Prop :=
  middle.MarkerFree ∨ pattern.Groups several ∧
    (pattern.MarkerFree ∨ middle.Groups several ∧ Separate pattern.variableNames)

theorem expands_of_separate (middle : b.IsOperand) (pattern : c.IsOperand)
    (flat : c.FlatTemplates) (groups : c.Groups several) (middleGroups : b.Groups several)
    (separate : Separate c.variableNames) (first : a.Expands b n τ) (second : b.Expands c k σ) :
    ∃ count ρ, a.Expands c count ρ := by
  by_cases values : ∀ name ∈ (c.expandAll c.fixedVariables k).occurrences false,
      (σ name).isMarker = false
  · exact ⟨k, _, expands_of_values pattern.1 pattern.2 flat first second values
      (expandAll_boundNames pattern.1 pattern.2 separate k ▸ values)⟩
  · simp only [not_forall, Bool.not_eq_false] at values
    obtain ⟨name, occurs, marks⟩ := values
    have image : ((c.expandAll c.fixedVariables k).subst σ).WellShaped :=
      second.matched.symm ▸ middle.1
    have imageRoot : ((c.expandAll c.fixedVariables k).subst σ).isMarker = false :=
      second.matched.symm ▸ middle.2
    obtain rfl := count_of_marker pattern.1 flat groups image imageRoot occurs marks
    have marked : ¬b.MarkerFree := by
      intro free
      rw [← second.matched] at free
      exact absurd (marks.symm.trans (free.value_of_subst occurs).isMarker_eq_false) (by decide)
    have readable := (first.counted.resolve_left marked).1
    exact ⟨n, _, expands_of_single middle.1 middle.2 middleGroups pattern.1 pattern.2 flat groups
      separate first second readable⟩

theorem expands_trans (middle : b.IsOperand) (pattern : c.IsOperand) (flat : c.FlatTemplates)
    (composes : b.Composes c) (first : a.Expands b n τ) (second : b.Expands c k σ) :
    ∃ count ρ, a.Expands c count ρ := by
  rcases composes with free | ⟨groups, free | ⟨middleGroups, separate⟩⟩
  · refine ⟨k, _, expands_of_values pattern.1 pattern.2 flat first second ?_ ?_⟩
    · intro name occurs
      rw [← second.matched] at free
      exact (free.value_of_subst occurs).isMarker_eq_false
    · intro name occurs
      rw [← second.rebuilt] at free
      exact (free.value_of_subst occurs).isMarker_eq_false
  · have image := second.matched
    rw [free.expandAll_eq] at image
    have values (name : String) (occurs : name ∈ c.occurrences false) : (σ name).isMarker = false :=
      values_of_markerFree free groups (image.symm ▸ middle.1) (image.symm ▸ middle.2) occurs
    refine ⟨k, _, expands_of_values pattern.1 pattern.2 flat first second ?_ ?_⟩
    · rwa [free.expandAll_eq]
    · rwa [free.expandAll_eq]
  · exact expands_of_separate middle pattern flat groups middleGroups separate first second

theorem isInstanceOf_trans (subject : a.IsOperand) (middle : b.IsOperand) (pattern : c.IsOperand)
    (middleFlat : b.FlatTemplates) (flat : c.FlatTemplates) (composes : b.Composes c)
    (first : a.isInstanceOf b = .ok true) (second : b.isInstanceOf c = .ok true) :
    a.isInstanceOf c = .ok true := by
  obtain ⟨n, τ, first⟩ := expands_of_isInstanceOf subject.1 middle.1 middle.2 middleFlat first
  obtain ⟨k, σ, second⟩ := expands_of_isInstanceOf middle.1 pattern.1 pattern.2 flat second
  rw [isInstanceOf_iff subject.1 pattern.1 pattern.2 flat]
  exact expands_trans middle pattern flat composes first second

end

end Stepwise.Expr
