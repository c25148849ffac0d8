import Stepwise.Expr.Variables
import Stepwise.Proofs.Collections
import Stepwise.Proofs.Expr.Nodes

/-!
Substitution of expressions for variables, and its relation to the occurrences of variables and to
renaming. Substituting what is no marker keeps trees well shaped.
-/

namespace Stepwise.Expr

mutual

def subst (σ : String → Expr) : Expr → Expr
  | node .var symbol _ => σ symbol
  | node kind symbol children => node kind symbol (substEach σ children)

def substEach (σ : String → Expr) : List Expr → List Expr
  | [] => []
  | child :: rest => subst σ child :: substEach σ rest

end

theorem substEach_eq_map (σ : String → Expr) (es : List Expr) :
    substEach σ es = es.map (subst σ) := by
  induction es with
  | nil => rfl
  | cons e es ih => simp [substEach, ih]

@[simp] theorem subst_var (σ : String → Expr) (symbol : String) (children : List Expr) :
    (node .var symbol children).subst σ = σ symbol := by
  simp [subst]

theorem subst_node (σ : String → Expr) (kind : Kind) (symbol : String) (children : List Expr)
    (notVar : kind ≠ .var) :
    (node kind symbol children).subst σ = node kind symbol (children.map (subst σ)) := by
  rw [← substEach_eq_map, subst]
  exact notVar

@[simp] theorem rename_var (names : String → String) (symbol : String) (children : List Expr) :
    (node .var symbol children).rename names = node .var (names symbol) children := by
  simp [rename]

theorem rename_node (names : String → String) (kind : Kind) (symbol : String)
    (children : List Expr) (notVar : kind ≠ .var) :
    (node kind symbol children).rename names = node kind symbol (children.map (rename names)) := by
  rw [← renameEach_eq_map, rename]
  exact notVar

mutual

/-- The variables with repetitions, read from left to right. -/
def occurrences (skipTemplates : Bool) : Expr → List String
  | node .var symbol _ => [symbol]
  | node kind _ children =>
      if skipTemplates && kind = .variadic then [] else occurrencesEach skipTemplates children

def occurrencesEach (skipTemplates : Bool) : List Expr → List String
  | [] => []
  | child :: rest => occurrences skipTemplates child ++ occurrencesEach skipTemplates rest

end

theorem occurrencesEach_eq_flatMap (skipTemplates : Bool) (es : List Expr) :
    occurrencesEach skipTemplates es = es.flatMap (occurrences skipTemplates) := by
  induction es with
  | nil => rfl
  | cons e es ih => simp [occurrencesEach, ih]

@[simp] theorem occurrences_var (skipTemplates : Bool) (symbol : String) (children : List Expr) :
    (node .var symbol children).occurrences skipTemplates = [symbol] := by
  simp [occurrences]

theorem occurrences_node (skipTemplates : Bool) (kind : Kind) (symbol : String)
    (children : List Expr) (notVar : kind ≠ .var) :
    (node kind symbol children).occurrences skipTemplates =
      if skipTemplates && kind = .variadic then []
      else children.flatMap (occurrences skipTemplates) := by
  rw [← occurrencesEach_eq_flatMap, occurrences]
  exact notVar

theorem variablesAfterEach_eq (skipTemplates : Bool) (es : List Expr)
    (each : ∀ e ∈ es, ∀ found,
      e.variablesAfter skipTemplates found =
        OrderedSet.insertAll found (e.occurrences skipTemplates)) (found : List String) :
    variablesAfterEach skipTemplates found es =
      OrderedSet.insertAll found (es.flatMap (occurrences skipTemplates)) := by
  induction es generalizing found with
  | nil => rfl
  | cons e es ih =>
      rw [variablesAfterEach, each e (by simp), ih (fun e member => each e (by simp [member]))]
      simp [OrderedSet.insertAll, List.foldl_append]

theorem variablesAfter_eq (skipTemplates : Bool) (e : Expr) (found : List String) :
    e.variablesAfter skipTemplates found =
      OrderedSet.insertAll found (e.occurrences skipTemplates) := by
  induction e using Expr.induction generalizing found with
  | node kind symbol children each =>
      by_cases isVar : kind = .var
      · subst isVar
        simp [variablesAfter, OrderedSet.insertAll]
      · rw [occurrences_node _ _ _ _ isVar, variablesAfter]
        · split
          · rfl
          · exact variablesAfterEach_eq skipTemplates children each found
        · exact isVar

theorem mem_variableNames (e : Expr) (name : String) :
    name ∈ e.variableNames ↔ name ∈ e.occurrences false := by
  rw [variableNames, variablesAfter_eq, OrderedSet.mem_insertAll]
  simp

theorem mem_fixedVariables (e : Expr) (name : String) :
    name ∈ e.fixedVariables ↔ name ∈ e.occurrences true := by
  rw [fixedVariables, variablesAfter_eq, OrderedSet.mem_insertAll]
  simp

theorem mem_occurrences_of_child {kind : Kind} {symbol : String} {children : List Expr}
    (notVar : kind ≠ .var) {child : Expr} (member : child ∈ children) {name : String}
    (occurs : name ∈ child.occurrences false) :
    name ∈ (node kind symbol children).occurrences false := by
  rw [occurrences_node _ _ _ _ notVar]
  simpa using ⟨child, member, occurs⟩

theorem mem_occurrences_of_template {symbol mark : String} {template : Expr} {name : String}
    (occurs : name ∈ template.occurrences false) :
    name ∈ (node .train symbol [node .variadic mark [template]]).occurrences false :=
  mem_occurrences_of_child (by decide) (List.mem_singleton_self _)
    (mem_occurrences_of_child (by decide) (List.mem_singleton_self _) occurs)

theorem exists_child_of_mem_occurrences {kind : Kind} {symbol : String} {children : List Expr}
    (notVar : kind ≠ .var) {name : String}
    (occurs : name ∈ (node kind symbol children).occurrences false) :
    ∃ child ∈ children, name ∈ child.occurrences false := by
  rw [occurrences_node _ _ _ _ notVar] at occurs
  simpa using occurs

theorem mem_occurrences_of_fixed {e : Expr} {name : String} (fixed : name ∈ e.occurrences true) :
    name ∈ e.occurrences false := by
  induction e using Expr.induction with
  | node kind symbol children each =>
      by_cases isVar : kind = .var
      · subst isVar
        simpa using fixed
      · rw [occurrences_node _ _ _ _ isVar] at fixed
        split at fixed
        · simp at fixed
        · obtain ⟨child, member, inside⟩ := List.mem_flatMap.mp fixed
          exact mem_occurrences_of_child isVar member (each child member inside)

theorem occurrences_rename (names : String → String) (e : Expr) :
    (e.rename names).occurrences false = (e.occurrences false).map names := by
  induction e using Expr.induction with
  | node kind symbol children each =>
      by_cases isVar : kind = .var
      · subst isVar
        simp
      · rw [rename_node _ _ _ _ isVar, occurrences_node _ _ _ _ isVar,
          occurrences_node _ _ _ _ isVar]
        simp only [Bool.false_and, Bool.false_eq_true, ↓reduceIte, List.flatMap_map,
          List.map_flatMap]
        rw [List.flatMap_def, List.flatMap_def, List.map_congr_left each]

/-! Laws of substitution. -/

theorem subst_congr (σ τ : String → Expr) (e : Expr)
    (agree : ∀ name ∈ e.occurrences false, σ name = τ name) : e.subst σ = e.subst τ := by
  induction e using Expr.induction with
  | node kind symbol children each =>
      by_cases isVar : kind = .var
      · subst isVar
        simpa using agree
      · rw [subst_node _ _ _ _ isVar, subst_node _ _ _ _ isVar]
        congr 1
        apply List.map_congr_left
        intro child member
        exact each child member
          fun name occurs => agree name (mem_occurrences_of_child isVar member occurs)

theorem rename_congr (names others : String → String) (e : Expr)
    (agree : ∀ name ∈ e.occurrences false, names name = others name) :
    e.rename names = e.rename others := by
  induction e using Expr.induction with
  | node kind symbol children each =>
      by_cases isVar : kind = .var
      · subst isVar
        simpa using agree
      · rw [rename_node _ _ _ _ isVar, rename_node _ _ _ _ isVar]
        congr 1
        apply List.map_congr_left
        intro child member
        exact each child member
          fun name occurs => agree name (mem_occurrences_of_child isVar member occurs)

theorem rename_id (e : Expr) : e.rename id = e := by
  induction e using Expr.induction with
  | node kind symbol children each =>
      by_cases isVar : kind = .var
      · subst isVar
        simp
      · rw [rename_node _ _ _ _ isVar, List.map_congr_left each, List.map_id']

theorem subst_var_rename (names : String → String) (e : Expr) (shaped : e.WellShaped) :
    e.subst (fun name => var (names name)) = e.rename names := by
  induction e using Expr.induction with
  | node kind symbol children each =>
      by_cases isVar : kind = .var
      · subst isVar
        rw [shaped.children_eq_nil (Or.inr rfl), subst_var, rename_var, var]
      · rw [subst_node _ _ _ _ isVar, rename_node _ _ _ _ isVar,
          List.map_congr_left fun child member => each child member (shaped.child member)]

theorem subst_var_self (e : Expr) (shaped : e.WellShaped) : e.subst var = e :=
  (subst_var_rename id e shaped).trans (rename_id e)

theorem subst_subst (σ τ : String → Expr) (e : Expr) :
    (e.subst σ).subst τ = e.subst fun name => (σ name).subst τ := by
  induction e using Expr.induction with
  | node kind symbol children each =>
      by_cases isVar : kind = .var
      · subst isVar
        rw [subst_var, subst_var]
      · rw [subst_node _ _ _ _ isVar, subst_node _ _ _ _ isVar, subst_node _ _ _ _ isVar,
          List.map_map, ← List.map_congr_left each]
        rfl

theorem subst_rename (names : String → String) (σ : String → Expr) (e : Expr) :
    (e.rename names).subst σ = e.subst fun name => σ (names name) := by
  induction e using Expr.induction with
  | node kind symbol children each =>
      by_cases isVar : kind = .var
      · subst isVar
        rw [rename_var, subst_var, subst_var]
      · rw [rename_node _ _ _ _ isVar, subst_node _ _ _ _ isVar, subst_node _ _ _ _ isVar,
          List.map_map, ← List.map_congr_left each]
        rfl

@[simp] theorem isMarker_rename (names : String → String) (e : Expr) :
    (e.rename names).isMarker = e.isMarker := by
  obtain ⟨kind, symbol, children⟩ := e
  by_cases isVar : kind = .var
  · subst isVar
    simp
  · simp [rename_node _ _ _ _ isVar]

theorem WellShaped.rename {e : Expr} (shaped : e.WellShaped) (names : String → String) :
    (e.rename names).WellShaped := by
  induction e using Expr.induction with
  | node kind symbol children each =>
      by_cases isVar : kind = .var
      · subst isVar
        rw [rename_var, wellShaped_node]
        exact (wellShaped_node _ _ _).mp shaped
      · rw [rename_node _ _ _ _ isVar]
        exact shaped.map fun child member =>
          ⟨each child member (shaped.child member), isMarker_rename names child⟩

theorem MarkerFree.rename {e : Expr} (plain : e.MarkerFree) (names : String → String) :
    (e.rename names).MarkerFree := by
  induction e using Expr.induction with
  | node kind symbol children each =>
      obtain ⟨notMarker, inner⟩ := (markerFree_node _ _ _).mp plain
      by_cases isVar : kind = .var
      · subst isVar
        rw [rename_var, markerFree_node]
        exact ⟨notMarker, inner⟩
      · rw [rename_node _ _ _ _ isVar, markerFree_node]
        refine ⟨notMarker, ?_⟩
        simp only [List.mem_map]
        rintro _ ⟨child, member, rfl⟩
        exact each child member (inner child member)

theorem isMarker_subst (σ : String → Expr) (noMarkers : ∀ name, (σ name).isMarker = false)
    (e : Expr) : (e.subst σ).isMarker = e.isMarker := by
  obtain ⟨kind, symbol, children⟩ := e
  by_cases isVar : kind = .var
  · subst isVar
    simp [noMarkers]
  · simp [subst_node _ _ _ _ isVar]

theorem WellShaped.subst {e : Expr} (shaped : e.WellShaped) (σ : String → Expr)
    (values : ∀ name, (σ name).WellShaped) (noMarkers : ∀ name, (σ name).isMarker = false) :
    (e.subst σ).WellShaped := by
  induction e using Expr.induction with
  | node kind symbol children each =>
      by_cases isVar : kind = .var
      · subst isVar
        rw [subst_var]
        exact values symbol
      · rw [subst_node _ _ _ _ isVar]
        exact shaped.map fun child member =>
          ⟨each child member (shaped.child member), isMarker_subst σ noMarkers child⟩

end Stepwise.Expr
