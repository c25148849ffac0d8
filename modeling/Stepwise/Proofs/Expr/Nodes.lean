import Stepwise.Expr.Shape

/-!
Conditions on every node of a tree, and those on variadic markers: a tree is free of markers when
no node of it is one, and its templates are flat when no marker stands inside another. A marker of
a well shaped tree is the root or stands alone under a train.
-/

namespace Stepwise.Expr

mutual

def allNodes (test : Kind → String → List Expr → Bool) : Expr → Bool
  | node kind symbol children => test kind symbol children && allNodesEach test children

def allNodesEach (test : Kind → String → List Expr → Bool) : List Expr → Bool
  | [] => true
  | child :: rest => allNodes test child && allNodesEach test rest

end

theorem allNodesEach_iff (test : Kind → String → List Expr → Bool) (es : List Expr) :
    allNodesEach test es = true ↔ ∀ e ∈ es, e.allNodes test = true := by
  induction es with
  | nil => simp [allNodesEach]
  | cons e es ih => simp [allNodesEach, ih]

theorem allNodes_node (test : Kind → String → List Expr → Bool) (kind : Kind) (symbol : String)
    (children : List Expr) :
    (node kind symbol children).allNodes test = true ↔
      test kind symbol children = true ∧ ∀ child ∈ children, child.allNodes test = true := by
  rw [allNodes, Bool.and_eq_true, allNodesEach_iff]

theorem allNodes_true (e : Expr) : e.allNodes (fun _ _ _ => true) = true := by
  induction e using Expr.induction with
  | node kind symbol children each => exact (allNodes_node _ _ _ _).mpr ⟨rfl, each⟩

theorem allNodes_mono {test other : Kind → String → List Expr → Bool}
    (within : ∀ kind symbol children, test kind symbol children = true →
      other kind symbol children = true) {e : Expr} (holds : e.allNodes test = true) :
    e.allNodes other = true := by
  induction e using Expr.induction with
  | node kind symbol children each =>
      obtain ⟨here, inner⟩ := (allNodes_node _ _ _ _).mp holds
      exact (allNodes_node _ _ _ _).mpr
        ⟨within _ _ _ here, fun child member => each child member (inner child member)⟩

theorem templateInduction {P : Expr → Prop}
    (var : ∀ symbol children, P (node .var symbol children))
    (variadicTrain : ∀ symbol mark template, P template →
      P (node .train symbol [node .variadic mark [template]]))
    (other : ∀ kind symbol children, kind ≠ .var → (node kind symbol children).template? = none →
      (∀ child ∈ children, P child) → P (node kind symbol children))
    (e : Expr) : P e := by
  suffices both : P e ∧ ∀ child ∈ e.children, P child from both.1
  induction e using Expr.induction with
  | node kind symbol children each =>
      have inner : ∀ child ∈ children, P child := fun child member => (each child member).1
      refine ⟨?_, inner⟩
      by_cases isVar : kind = .var
      · subst isVar
        exact var symbol children
      · cases found : (node kind symbol children).template? with
        | none => exact other kind symbol children isVar found inner
        | some template =>
            unfold template? at found
            split at found
            · rename_i name mark inside eq
              simp only [node.injEq] at eq
              obtain ⟨rfl, rfl, rfl⟩ := eq
              have marker := (each (node .variadic mark [inside]) (by simp)).2
              exact variadicTrain symbol mark inside (marker inside (by simp))
            · simp at found

@[simp] theorem isMarker_node (kind : Kind) (symbol : String) (children : List Expr) :
    (node kind symbol children).isMarker = decide (kind = .variadic) := rfl

def MarkerFree (e : Expr) : Prop := e.allNodes (fun kind _ _ => kind ≠ .variadic) = true

instance (e : Expr) : Decidable e.MarkerFree := inferInstanceAs (Decidable (_ = true))

/-- No variadic marker stands inside another. -/
def FlatTemplates (e : Expr) : Prop :=
  e.allNodes (fun kind _ children => kind = .variadic → ∀ child ∈ children, child.MarkerFree) = true

instance (e : Expr) : Decidable e.FlatTemplates := inferInstanceAs (Decidable (_ = true))

def HasVariadicTrain (e : Expr) : Prop :=
  e.allNodes (fun kind symbol children => !(node kind symbol children).isVariadicTrain) = false

instance (e : Expr) : Decidable e.HasVariadicTrain := inferInstanceAs (Decidable (_ = false))

theorem markerFree_node (kind : Kind) (symbol : String) (children : List Expr) :
    (node kind symbol children).MarkerFree ↔
      kind ≠ .variadic ∧ ∀ child ∈ children, child.MarkerFree := by
  rw [MarkerFree, allNodes_node, decide_eq_true_iff]
  rfl

theorem flatTemplates_node (kind : Kind) (symbol : String) (children : List Expr) :
    (node kind symbol children).FlatTemplates ↔
      (kind = .variadic → ∀ child ∈ children, child.MarkerFree) ∧
        ∀ child ∈ children, child.FlatTemplates := by
  rw [FlatTemplates, allNodes_node, decide_eq_true_iff]
  rfl

theorem hasVariadicTrain_node (kind : Kind) (symbol : String) (children : List Expr) :
    (node kind symbol children).HasVariadicTrain ↔
      (node kind symbol children).isVariadicTrain = true ∨
        ∃ child ∈ children, child.HasVariadicTrain := by
  have each (e : Expr) : e.HasVariadicTrain ↔
      ¬e.allNodes (fun kind symbol children => !(node kind symbol children).isVariadicTrain) = true :=
    Bool.eq_false_iff
  rw [each, allNodes_node, Classical.not_and_iff_not_or_not]
  simp only [Bool.not_eq_true', Bool.not_eq_false, Classical.not_forall, each, exists_prop]

theorem MarkerFree.isMarker_eq_false {e : Expr} (plain : e.MarkerFree) : e.isMarker = false := by
  obtain ⟨kind, symbol, children⟩ := e
  simpa using ((markerFree_node kind symbol children).mp plain).1

theorem MarkerFree.flatTemplates {e : Expr} (plain : e.MarkerFree) : e.FlatTemplates := by
  induction e using Expr.induction with
  | node kind symbol children each =>
      obtain ⟨notMarker, inner⟩ := (markerFree_node kind symbol children).mp plain
      rw [flatTemplates_node]
      exact ⟨fun isMarker => absurd isMarker notMarker,
        fun child member => each child member (inner child member)⟩

theorem MarkerFree.template?_eq_none {e : Expr} (plain : e.MarkerFree) : e.template? = none := by
  unfold template?
  split
  · simp [markerFree_node] at plain
  · rfl

theorem template?_of_no_marker {kind : Kind} {symbol : String} {children : List Expr}
    (plain : ∀ child ∈ children, child.isMarker = false) :
    (node kind symbol children).template? = none := by
  unfold template?
  split
  · rename_i same
    obtain ⟨rfl, rfl, rfl⟩ := node.inj same
    simp at plain
  · rfl

theorem template?_of_length {kind : Kind} {symbol : String} {children : List Expr}
    (several : children.length ≠ 1) : (node kind symbol children).template? = none := by
  unfold template?
  split
  · rename_i same
    obtain ⟨rfl, rfl, rfl⟩ := node.inj same
    simp at several
  · rfl

theorem MarkerFree.not_hasVariadicTrain {e : Expr} (plain : e.MarkerFree) :
    ¬e.HasVariadicTrain := by
  induction e using Expr.induction with
  | node kind symbol children each =>
      obtain ⟨_, inner⟩ := (markerFree_node kind symbol children).mp plain
      rw [hasVariadicTrain_node]
      rintro (here | ⟨child, member, below⟩)
      · simp [isVariadicTrain, plain.template?_eq_none] at here
      · exact each child member (inner child member) below

theorem shapeFault?_eq_none_iff (kind : Kind) (children : List Expr) :
    shapeFault? kind children = none ↔
      countFault? kind children.length = none ∧
        ∀ child ∈ children, child.isMarker = true → kind = .train ∧ children.length = 1 := by
  unfold shapeFault?
  cases countFault? kind children.length with
  | some fault => simp
  | none =>
      by_cases alone : kind = .train ∧ children.length = 1
      · simp [alone]
      · simp [alone]

theorem shapeFault?_map_congr (f g : Expr → Expr) (kind : Kind) (children : List Expr)
    (same : ∀ child ∈ children, (f child).isMarker = (g child).isMarker) :
    shapeFault? kind (children.map f) = shapeFault? kind (children.map g) := by
  have markers : (children.map f).any isMarker = (children.map g).any isMarker := by
    rw [List.any_map, List.any_map, Bool.eq_iff_iff, List.any_eq_true, List.any_eq_true]
    constructor
    · rintro ⟨child, member, marks⟩
      exact ⟨child, member, (same child member).symm.trans marks⟩
    · rintro ⟨child, member, marks⟩
      exact ⟨child, member, (same child member).trans marks⟩
  unfold shapeFault?
  rw [markers, List.length_map, List.length_map]

theorem shapeFault?_map (f : Expr → Expr) (kind : Kind) (children : List Expr)
    (same : ∀ child ∈ children, (f child).isMarker = child.isMarker) :
    shapeFault? kind (children.map f) = shapeFault? kind children := by
  rw [shapeFault?_map_congr f id kind children same, List.map_id]

theorem WellShaped.child {kind : Kind} {symbol : String} {children : List Expr}
    (shaped : (node kind symbol children).WellShaped) {child : Expr} (member : child ∈ children) :
    child.WellShaped :=
  ((wellShaped_node kind symbol children).mp shaped).2 child member

theorem countFault?_of_wellShaped {kind : Kind} {symbol : String} {children : List Expr}
    (shaped : (node kind symbol children).WellShaped) :
    countFault? kind children.length = none :=
  ((shapeFault?_eq_none_iff _ _).mp ((wellShaped_node _ _ _).mp shaped).1).1

theorem WellShaped.map {kind : Kind} {symbol : String} {children : List Expr}
    (shaped : (node kind symbol children).WellShaped) {f : Expr → Expr}
    (each : ∀ child ∈ children, (f child).WellShaped ∧ (f child).isMarker = child.isMarker) :
    (node kind symbol (children.map f)).WellShaped := by
  rw [wellShaped_node, shapeFault?_map _ _ _ fun child member => (each child member).2]
  refine ⟨((wellShaped_node _ _ _).mp shaped).1, ?_⟩
  simp only [List.mem_map]
  rintro _ ⟨child, member, rfl⟩
  exact (each child member).1

theorem WellShaped.children_eq_nil {kind : Kind} {symbol : String} {children : List Expr}
    (shaped : (node kind symbol children).WellShaped) (leaf : kind = .const ∨ kind = .var) :
    children = [] := by
  have count := ((shapeFault?_eq_none_iff kind children).mp
    ((wellShaped_node kind symbol children).mp shaped).1).1
  rcases leaf with rfl | rfl
  all_goals simpa [countFault?] using count

theorem WellShaped.marker {symbol : String} {children : List Expr}
    (shaped : (node .variadic symbol children).WellShaped) :
    ∃ template, children = [template] ∧ template.WellShaped ∧ template.isMarker = false := by
  obtain ⟨count, alone⟩ := (shapeFault?_eq_none_iff .variadic children).mp
    ((wellShaped_node .variadic symbol children).mp shaped).1
  have one : children.length = 1 := by simpa [countFault?] using count
  obtain ⟨template, rfl⟩ := List.length_eq_one_iff.mp one
  refine ⟨template, rfl, shaped.child (by simp), ?_⟩
  rw [Bool.eq_false_iff]
  intro marks
  exact absurd (alone template (by simp) marks).1 (by decide)

theorem WellShaped.child_isMarker_eq_false {kind : Kind} {symbol : String} {children : List Expr}
    (shaped : (node kind symbol children).WellShaped)
    (plain : (node kind symbol children).template? = none) {child : Expr}
    (member : child ∈ children) : child.isMarker = false := by
  rw [Bool.eq_false_iff]
  intro marks
  obtain ⟨rfl, one⟩ := ((shapeFault?_eq_none_iff kind children).mp
    ((wellShaped_node kind symbol children).mp shaped).1).2 child member marks
  obtain ⟨only, rfl⟩ := List.length_eq_one_iff.mp one
  obtain rfl := List.mem_singleton.mp member
  obtain ⟨kind, mark, inside⟩ := child
  have isVariadic : kind = .variadic := by simpa using marks
  subst isVariadic
  obtain ⟨template, rfl, _⟩ := (shaped.child member).marker
  simp [template?] at plain

theorem WellShaped.isVariadicTrain_iff {kind : Kind} {symbol : String} {children : List Expr}
    (shaped : (node kind symbol children).WellShaped) :
    (node kind symbol children).isVariadicTrain = true ↔
      ∃ child ∈ children, child.isMarker = true := by
  constructor
  · intro variadic
    refine Classical.byContradiction fun absent => ?_
    have plain : (node kind symbol children).template? = none :=
      template?_of_no_marker fun child member =>
        Bool.eq_false_iff.mpr fun marks => absent ⟨child, member, marks⟩
    simp [isVariadicTrain, plain] at variadic
  · rintro ⟨child, member, marks⟩
    refine Classical.byContradiction fun notVariadic => ?_
    have plain : (node kind symbol children).template? = none := by
      simpa [isVariadicTrain] using notVariadic
    simp [shaped.child_isMarker_eq_false plain member] at marks

def IsOperand (e : Expr) : Prop := e.WellShaped ∧ e.isMarker = false

theorem wellShaped_iff_of_plain {kind : Kind} {symbol : String} {children : List Expr}
    (plain : (node kind symbol children).template? = none) :
    (node kind symbol children).WellShaped ↔
      countFault? kind children.length = none ∧ ∀ child ∈ children, child.IsOperand := by
  constructor
  · intro shaped
    have fits := ((wellShaped_node _ _ _).mp shaped).1
    exact ⟨((shapeFault?_eq_none_iff _ _).mp fits).1,
      fun child member => ⟨shaped.child member, shaped.child_isMarker_eq_false plain member⟩⟩
  · rintro ⟨count, each⟩
    rw [wellShaped_node, shapeFault?_eq_none_iff]
    refine ⟨⟨count, ?_⟩, fun child member => (each child member).1⟩
    intro child member marks
    exact absurd marks (by simp [(each child member).2])

theorem markerFree_of_not_hasVariadicTrain {e : Expr} (shaped : e.WellShaped)
    (root : e.isMarker = false) (absent : ¬e.HasVariadicTrain) : e.MarkerFree := by
  induction e using Expr.induction with
  | node kind symbol children each =>
      rw [hasVariadicTrain_node, not_or] at absent
      have plain : (node kind symbol children).template? = none := by
        simpa [isVariadicTrain] using absent.1
      rw [markerFree_node]
      refine ⟨by simpa using root, ?_⟩
      intro child member
      refine each child member (shaped.child member)
        (shaped.child_isMarker_eq_false plain member) ?_
      exact fun below => absent.2 ⟨child, member, below⟩

end Stepwise.Expr
