import Stepwise.Matching.Instance
import Stepwise.Proofs.Expr.Substitution
import Stepwise.Proofs.Number.Numeral

/-!
Expansion of all the variadic trains of an expression to the same number of copies, and the names
that stay apart under it: no name is another one with a copy's number written after it.
-/

namespace Stepwise.Expr

mutual

def expandAll (shared : List String) (count : Nat) : Expr → Expr
  | node .var symbol children => node .var symbol children
  | node .train symbol [node .variadic _ [template]] => train symbol (copies shared template count)
  | node kind symbol children => node kind symbol (expandEach shared count children)

def expandEach (shared : List String) (count : Nat) : List Expr → List Expr
  | [] => []
  | child :: rest => expandAll shared count child :: expandEach shared count rest

end

theorem expandEach_eq_map (shared : List String) (count : Nat) (es : List Expr) :
    expandEach shared count es = es.map (expandAll shared count) := by
  induction es with
  | nil => rfl
  | cons e es ih => simp [expandEach, ih]

@[simp] theorem expandAll_variadicTrain (shared : List String) (count : Nat)
    (symbol mark : String) (template : Expr) :
    (node .train symbol [node .variadic mark [template]]).expandAll shared count =
      node .train symbol (copies shared template count) := by
  rw [expandAll, train]

@[simp] theorem expandAll_var (shared : List String) (count : Nat) (symbol : String)
    (children : List Expr) :
    (node .var symbol children).expandAll shared count = node .var symbol children := by
  rw [expandAll]

theorem expandAll_node (shared : List String) (count : Nat) (kind : Kind) (symbol : String)
    (children : List Expr) (notVar : kind ≠ .var)
    (plain : (node kind symbol children).template? = none) :
    (node kind symbol children).expandAll shared count =
      node kind symbol (children.map (expandAll shared count)) := by
  rw [← expandEach_eq_map, expandAll]
  · exact notVar
  · rintro mark template rfl rfl
    simp [template?] at plain

theorem expand_eq (e : Expr) (shared : List String) (count : Nat) (positive : 1 ≤ count)
    (variadic : e.isVariadicTrain = true) :
    e.expand count shared = .ok (e.expandAll shared count) := by
  obtain ⟨template, found⟩ := Option.isSome_iff_exists.mp variadic
  unfold template? at found
  split at found
  · rename_i symbol mark inside
    have notLess : ¬(count : Int) < 1 := by omega
    simp [expand, template?, notLess, train]
  · simp at found

theorem copiesFrom_eq_map (shared : List String) (template : Expr) (first count : Nat) :
    copiesFrom shared template first count =
      (List.range count).map fun index => copy shared ((first + index : Nat) : Int) template := by
  induction count generalizing first with
  | zero => rfl
  | succ count ih =>
      rw [copiesFrom, ih, List.range_succ_eq_map, List.map_cons, List.map_map]
      congr 1
      apply List.map_congr_left
      intro index _
      simp only [Function.comp, Nat.succ_eq_add_one]
      congr 2
      omega

theorem copies_eq_map (shared : List String) (template : Expr) (count : Nat) :
    copies shared template count =
      (List.range count).map fun index =>
        template.rename (copyName shared ((index + 1 : Nat) : Int)) := by
  rw [copies, copiesFrom_eq_map]
  apply List.map_congr_left
  intro index _
  rw [copy, Nat.add_comm 1 index]

theorem mem_copies (shared : List String) (template : Expr) (count : Nat) (e : Expr) :
    e ∈ copies shared template count ↔
      ∃ index < count, template.rename (copyName shared ((index + 1 : Nat) : Int)) = e := by
  simp [copies_eq_map]

@[simp] theorem length_copies (shared : List String) (template : Expr) (count : Nat) :
    (copies shared template count).length = count := by
  simp [copies]

theorem copyName_of_mem {shared : List String} {name : String} (member : name ∈ shared)
    (index : Int) : copyName shared index name = name := by
  simp [copyName, member]

theorem copyName_of_not_mem {shared : List String} {name : String} (absent : name ∉ shared)
    (index : Int) : copyName shared index name = name ++ "_" ++ toString index := by
  simp [copyName, absent]

theorem copyName_ne_ellipsis {name : String} (other : name ≠ ellipsis) (shared : List String)
    (index : Int) : copyName shared index name ≠ ellipsis := by
  by_cases shares : name ∈ shared
  · rwa [copyName_of_mem shares]
  · rw [copyName_of_not_mem shares]
    intro same
    have underscore : '_' ∈ (name ++ "_" ++ toString index).toList := by simp
    rw [same] at underscore
    exact absurd underscore (by decide)

theorem copies_congr {shared others : List String} {template : Expr}
    (agree : ∀ name ∈ template.occurrences false, (name ∈ shared ↔ name ∈ others))
    (count : Nat) : copies shared template count = copies others template count := by
  rw [copies_eq_map, copies_eq_map]
  apply List.map_congr_left
  intro index _
  apply rename_congr
  intro name occurs
  simp only [copyName, agree name occurs]

/-! Expansion. -/

theorem MarkerFree.expandAll_eq {e : Expr} (plain : e.MarkerFree) (shared : List String)
    (count : Nat) : e.expandAll shared count = e := by
  induction e using Expr.induction with
  | node kind symbol children each =>
      obtain ⟨_, inner⟩ := (markerFree_node _ _ _).mp plain
      by_cases isVar : kind = .var
      · subst isVar
        exact expandAll_var shared count symbol children
      · rw [expandAll_node _ _ _ _ _ isVar plain.template?_eq_none,
          List.map_congr_left fun child member => each child member (inner child member)]
        simp

theorem expandAll_congr {shared others : List String} {e : Expr}
    (agree : ∀ name ∈ e.occurrences false, (name ∈ shared ↔ name ∈ others)) (count : Nat) :
    e.expandAll shared count = e.expandAll others count := by
  induction e using templateInduction with
  | var symbol children => rw [expandAll_var, expandAll_var]
  | variadicTrain symbol mark template ih =>
      rw [expandAll_variadicTrain, expandAll_variadicTrain, copies_congr]
      intro name occurs
      apply agree
      exact mem_occurrences_of_template occurs
  | other kind symbol children notVar plain each =>
      rw [expandAll_node _ _ _ _ _ notVar plain, expandAll_node _ _ _ _ _ notVar plain]
      congr 1
      apply List.map_congr_left
      intro child member
      exact each child member
        fun name occurs => agree name (mem_occurrences_of_child notVar member occurs)

theorem exists_original_of_mem_copies {shared : List String} {count : Nat} {symbol mark : String}
    {template : Expr} {name : String}
    (occurs : name ∈ ((node .train symbol [node .variadic mark [template]]).expandAll shared
      count).occurrences false) :
    ∃ original ∈ template.occurrences false, ∃ index < count,
      copyName shared ((index + 1 : Nat) : Int) original = name := by
  rw [expandAll_variadicTrain] at occurs
  obtain ⟨part, member, inside⟩ := exists_child_of_mem_occurrences (by decide) occurs
  obtain ⟨index, less, rfl⟩ := (mem_copies _ _ _ _).mp member
  rw [occurrences_rename, List.mem_map] at inside
  obtain ⟨original, inTemplate, same⟩ := inside
  exact ⟨original, inTemplate, index, less, same⟩

theorem exists_child_of_mem_expandAll {shared : List String} {count : Nat} {kind : Kind}
    {symbol : String} {children : List Expr} (notVar : kind ≠ .var)
    (plain : (node kind symbol children).template? = none) {name : String}
    (occurs : name ∈ ((node kind symbol children).expandAll shared count).occurrences false) :
    ∃ child ∈ children, name ∈ (child.expandAll shared count).occurrences false := by
  rw [expandAll_node _ _ _ _ _ notVar plain] at occurs
  obtain ⟨_, member, inside⟩ := exists_child_of_mem_occurrences notVar occurs
  obtain ⟨child, inChildren, rfl⟩ := List.mem_map.mp member
  exact ⟨child, inChildren, inside⟩

@[simp] theorem isMarker_expandAll (shared : List String) (count : Nat) (e : Expr) :
    (e.expandAll shared count).isMarker = e.isMarker := by
  cases e using templateInduction with
  | var symbol children => rw [expandAll_var]
  | variadicTrain symbol mark template => simp
  | other kind symbol children notVar plain => simp [expandAll_node _ _ _ _ _ notVar plain]

theorem template_of_variadicTrain {symbol mark : String} {template : Expr}
    (shaped : (node .train symbol [node .variadic mark [template]]).WellShaped)
    (flat : (node .train symbol [node .variadic mark [template]]).FlatTemplates) :
    template.WellShaped ∧ template.MarkerFree := by
  refine ⟨(shaped.child (List.mem_singleton_self _)).child (List.mem_singleton_self _), ?_⟩
  have marker := ((flatTemplates_node _ _ _).mp flat).2 _ (List.mem_singleton_self _)
  exact ((flatTemplates_node _ _ _).mp marker).1 rfl template (List.mem_singleton_self _)

theorem copies_plain {template part : Expr} (shaped : template.WellShaped)
    (plain : template.MarkerFree) {shared : List String} {count : Nat}
    (member : part ∈ copies shared template count) : part.WellShaped ∧ part.MarkerFree := by
  obtain ⟨index, _, rfl⟩ := (mem_copies _ _ _ _).mp member
  exact ⟨shaped.rename _, plain.rename _⟩

theorem FlatTemplates.child {kind : Kind} {symbol : String} {children : List Expr}
    (flat : (node kind symbol children).FlatTemplates) {child : Expr} (member : child ∈ children) :
    child.FlatTemplates :=
  ((flatTemplates_node _ _ _).mp flat).2 child member

theorem WellShaped.expandAll {e : Expr} (shaped : e.WellShaped) (flat : e.FlatTemplates)
    (shared : List String) {count : Nat} (positive : 1 ≤ count) :
    (e.expandAll shared count).WellShaped := by
  induction e using templateInduction with
  | var symbol children => simpa using shaped
  | variadicTrain symbol mark template =>
      obtain ⟨templateShaped, plain⟩ := template_of_variadicTrain shaped flat
      rw [expandAll_variadicTrain, wellShaped_node, shapeFault?_eq_none_iff]
      have nonempty : count ≠ 0 := by omega
      refine ⟨⟨by simp [countFault?, nonempty], ?_⟩, ?_⟩
      · intro child member marks
        simp [(copies_plain templateShaped plain member).2.isMarker_eq_false] at marks
      · exact fun child member => (copies_plain templateShaped plain member).1
  | other kind symbol children notVar plain each =>
      rw [expandAll_node _ _ _ _ _ notVar plain]
      exact shaped.map fun child member =>
        ⟨each child member (shaped.child member) (flat.child member),
          isMarker_expandAll shared count child⟩

theorem FlatTemplates.markerFree_expandAll {e : Expr} (flat : e.FlatTemplates)
    (shaped : e.WellShaped) (root : e.isMarker = false) (shared : List String) (count : Nat) :
    (e.expandAll shared count).MarkerFree := by
  induction e using templateInduction with
  | var symbol children =>
      rw [shaped.children_eq_nil (Or.inr rfl), expandAll_var]
      simp [markerFree_node]
  | variadicTrain symbol mark template =>
      rw [expandAll_variadicTrain, markerFree_node]
      obtain ⟨templateShaped, plain⟩ := template_of_variadicTrain shaped flat
      exact ⟨by decide, fun child member => (copies_plain templateShaped plain member).2⟩
  | other kind symbol children notVar plain each =>
      rw [expandAll_node _ _ _ _ _ notVar plain, markerFree_node]
      refine ⟨by simpa using root, ?_⟩
      simp only [List.mem_map]
      rintro _ ⟨child, member, rfl⟩
      exact each child member (flat.child member) (shaped.child member)
        (shaped.child_isMarker_eq_false plain member)

theorem numbered_injective {first second : String} {m n : Nat}
    (same : first ++ "_" ++ toString m = second ++ "_" ++ toString n) : first = second ∧ m = n := by
  have digits (k : Nat) (rest : List Char) :
      ((toString k).toList.reverse ++ '_' :: rest).takeWhile (· ≠ '_') =
        (toString k).toList.reverse := by
    rw [List.takeWhile_append_of_pos]
    · simp
    · intro c member
      have digit := Literal.isDigit_of_mem_toString (List.mem_reverse.mp member)
      refine decide_eq_true ?_
      rintro rfl
      exact absurd digit (by decide)
  have lists : (toString m).toList.reverse ++ '_' :: first.toList.reverse =
      (toString n).toList.reverse ++ '_' :: second.toList.reverse := by
    simpa using congrArg (fun name => name.toList.reverse) same
  have numbers : (toString m).toList.reverse = (toString n).toList.reverse := by
    rw [← digits m first.toList.reverse, lists, digits]
  rw [numbers] at lists
  have names := (List.cons.inj (List.append_cancel_left lists)).2
  exact ⟨String.toList_injective (List.reverse_inj.mp names),
    Literal.toString_injective (String.toList_injective (List.reverse_inj.mp numbers))⟩

/-- No name is the ellipsis, and none is another one with a number written after it. -/
def Separate (names : List String) : Prop :=
  ellipsis ∉ names ∧
    ∀ name ∈ names, ∀ other ∈ names, ∀ index : Nat, other ≠ name ++ "_" ++ toString index

theorem Separate.of_no_underscore {names : List String} (absent : ellipsis ∉ names)
    (plain : ∀ name ∈ names, '_' ∉ name.toList) : Separate names := by
  refine ⟨absent, ?_⟩
  rintro name _ _ member index rfl
  exact plain _ member (by simp)

theorem Separate.copyName_not_mem {names : List String} (separate : Separate names)
    {shared : List String} {name : String} (member : name ∈ names) (absent : name ∉ shared)
    (index : Nat) : copyName shared (index : Int) name ∉ names := by
  intro other
  rw [copyName_of_not_mem absent] at other
  exact separate.2 name member _ other index rfl

end Stepwise.Expr
