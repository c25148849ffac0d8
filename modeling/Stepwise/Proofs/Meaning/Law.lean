import Stepwise.Proofs.Deduction.Settled
import Stepwise.Proofs.Meaning.Replacement
import Stepwise.Proofs.Meaning.Ring

/-!
Laws of a model: equations whose sides have the same value under every valuation, with any number of
copies in their variadic trains. Rewriting by a law, at any address, keeps the value.
-/

namespace Stepwise.Model

open Stepwise.Expr

universe u

variable {D : Type u}

/-- The copies on both sides share the variables that stand outside the templates of the left one.
An equation without variadic trains may use any names. -/
structure IsLaw (M : Model D) (lhs rhs : Expr) : Prop where
  shaped : (equation lhs rhs).WellShaped
  variadic : (equation lhs rhs).HasVariadicTrain →
    lhs.HasVariadicTrain ∧ (equation lhs rhs).FlatTemplates ∧
      Separate (equation lhs rhs).variableNames
  holds : ∀ count, 1 ≤ count → ∀ ν, M.value ν (rhs.expandAll lhs.fixedVariables count) =
    M.value ν (lhs.expandAll lhs.fixedVariables count)

section

variable {M : Model D} {lhs rhs : Expr}

theorem IsLaw.plain_of_not_variadic (law : M.IsLaw lhs rhs)
    (absent : ¬(equation lhs rhs).HasVariadicTrain) : lhs.Plain ∧ rhs.Plain :=
  statement_plain law.shaped absent

theorem IsLaw.flat (law : M.IsLaw lhs rhs) : (equation lhs rhs).FlatTemplates := by
  by_cases variadic : (equation lhs rhs).HasVariadicTrain
  · exact (law.variadic variadic).2.1
  · exact (markerFree_of_not_hasVariadicTrain law.shaped rfl variadic).flatTemplates

theorem IsLaw.markerFree_right (law : M.IsLaw lhs rhs) (free : lhs.MarkerFree) :
    rhs.MarkerFree := by
  by_cases variadic : (equation lhs rhs).HasVariadicTrain
  · exact absurd (law.variadic variadic).1 free.not_hasVariadicTrain
  · exact (law.plain_of_not_variadic variadic).2.2

theorem IsLaw.areInstances (law : M.IsLaw lhs rhs) {e image : Expr} (plain : e.Plain)
    (stepped : e.byEquation (equation lhs rhs) = .ok image) :
    ∃ bindings, e.bindings? lhs = some bindings ∧
      AreInstances lhs rhs bindings.toSubst e image := by
  by_cases variadic : (equation lhs rhs).HasVariadicTrain
  · obtain ⟨_, flat, separate⟩ := law.variadic variadic
    exact areInstances_of_byEquation ⟨law.shaped, flat, separate⟩ plain stepped
  · obtain ⟨left, right⟩ := law.plain_of_not_variadic variadic
    exact areInstances_of_plain left right plain stepped

theorem IsLaw.formed_of_instances (law : M.IsLaw lhs rhs) {known allowed : Kind → String → Bool}
    (leaves : ∀ symbol, known .var symbol = true)
    (within : ∀ kind symbol, kind ≠ .variadic → known kind symbol = true →
      allowed kind symbol = true) (formed : rhs.Formed known) {σ : String → Expr}
    (values : ∀ name, (σ name).Formed allowed) {left right : Expr}
    (instances : AreInstances lhs rhs σ left right) : right.Formed allowed := by
  rcases instances with ⟨free, rfl, rfl⟩ | ⟨count, positive, rfl, rfl⟩
  · exact (formed.of_markerFree within (law.markerFree_right free)).subst values
  · obtain ⟨_, shaped, root⟩ := (statement_wellShaped _ _ _).mp law.shaped
    have flat : rhs.FlatTemplates := law.flat.child (by simp)
    have free := flat.markerFree_expandAll shaped root lhs.fixedVariables count
    exact ((formed.expandAll leaves _ positive).of_markerFree within free).subst values

theorem IsLaw.value_of_instances (law : M.IsLaw lhs rhs) {σ : String → Expr}
    (noMarkers : ∀ name, (σ name).isMarker = false) {left right : Expr}
    (instances : AreInstances lhs rhs σ left right) (ν : String → D) :
    M.value ν right = M.value ν left := by
  rcases instances with ⟨free, rfl, rfl⟩ | ⟨count, positive, rfl, rfl⟩
  · have otherFree := law.markerFree_right free
    have same := law.holds 1 (Nat.le_refl 1) fun name => M.value ν (σ name)
    rw [free.expandAll_eq, otherFree.expandAll_eq] at same
    rw [M.value_subst ν otherFree σ noMarkers, M.value_subst ν free σ noMarkers, same]
  · obtain ⟨⟨shaped, root⟩, otherShaped, otherRoot⟩ := (statement_wellShaped _ _ _).mp law.shaped
    have flat : lhs.FlatTemplates := law.flat.child (by simp)
    have otherFlat : rhs.FlatTemplates := law.flat.child (by simp)
    have free := flat.markerFree_expandAll shaped root lhs.fixedVariables count
    have otherFree := otherFlat.markerFree_expandAll otherShaped otherRoot lhs.fixedVariables count
    rw [M.value_subst ν otherFree σ noMarkers, M.value_subst ν free σ noMarkers,
      law.holds count positive]

theorem IsLaw.byEquation (law : M.IsLaw lhs rhs) {e image : Expr} (plain : e.Plain)
    (stepped : e.byEquation (equation lhs rhs) = .ok image) :
    image.Plain ∧ ∀ ν, M.value ν image = M.value ν e := by
  obtain ⟨bindings, found, instances⟩ := law.areInstances plain stepped
  have values := plain_toSubst plain found
  obtain ⟨_, shaped, _⟩ := (statement_wellShaped _ _ _).mp law.shaped
  constructor
  · have formed : rhs.Formed fun _ _ => true :=
      shaped.formed (allNodes_true rhs) fun _ _ _ _ => rfl
    refine (formed_iff_plain image).mp (law.formed_of_instances (fun _ => rfl) ?_ formed
      (fun name => (formed_iff_plain _).mpr (values name)) instances)
    exact fun kind symbol notMarker _ => decide_eq_true notMarker
  · exact law.value_of_instances (fun name => (values name).2.isMarker_eq_false) instances

theorem IsLaw.byEquationAt (law : M.IsLaw lhs rhs) {e result : Expr} {address : Address}
    (plain : e.Plain)
    (assoc : ∀ index train, address.pair = some index → e.nodeAt address.path = .ok train →
      train.isTrain = true → M.Associates train.symbol)
    (stepped : e.byEquationAt (equation lhs rhs) address = .ok result) :
    result.Plain ∧ ∀ ν, M.value ν result = M.value ν e := by
  obtain ⟨target, resolved, rest⟩ := Attempt.bind_eq_ok.mp stepped
  obtain ⟨image, turned, replaced⟩ := Attempt.bind_eq_ok.mp rest
  have formed := (formed_iff_plain e).mpr plain
  have targetFormed := formed.resolve (fun _ => rfl) resolved
  obtain ⟨imagePlain, same⟩ := law.byEquation ((formed_iff_plain _).mp targetFormed) turned
  have imageFormed := (formed_iff_plain image).mpr imagePlain
  have grafted := imageFormed.replace formed ⟨target, resolved⟩ replaced
  refine ⟨(formed_iff_plain result).mp grafted, ?_⟩
  exact fun ν => value_replace (fun _ => rfl) imageFormed formed resolved assoc (same ν) replaced

end

section

variable (M : Model D) (ν : String → D)

theorem value_rename (names : String → String) {e : Expr} (plain : e.Plain) :
    M.value ν (e.rename names) = M.value (fun name => ν (names name)) e := by
  rw [← subst_var_rename names e plain.1, M.value_subst ν plain.2 _ fun _ => rfl]
  simp only [var, value_var]

theorem value_copies (symbol : String) (shared : List String) {template : Expr}
    (plain : template.Plain) (count : Nat) :
    M.value ν (train symbol (copies shared template count)) =
      leftFold (M.binary symbol) (M.operation .train symbol []) ((List.range count).map fun index =>
        M.value (fun name => ν (copyName shared ((index + 1 : Nat) : Int) name)) template) := by
  have free : (train symbol (copies shared template count)).template? = none := by
    apply template?_of_no_marker
    exact fun part member => (copies_plain plain.1 plain.2 member).2.isMarker_eq_false
  rw [M.value_train ν free, copies_eq_map, List.map_map]
  congr 1
  apply List.map_congr_left
  intro index _
  exact M.value_rename ν _ plain

variable {M} (distributes : ∀ x y z,
  M.binary "*" x (M.binary "+" y z) = M.binary "+" (M.binary "*" x y) (M.binary "*" x z))

include distributes

theorem value_products {count : Nat} (positive : 1 ≤ count) :
    M.value ν (train "+" (copies ["X"] (.binary "*" (var "X") (var "A")) count)) =
      M.binary "*" (ν "X") (M.value ν (train "+" (copies ["X"] (var "A") count))) := by
  have nonempty : ((List.range count).map fun index =>
      M.value (fun name => ν (copyName ["X"] ((index + 1 : Nat) : Int) name)) (var "A")) ≠ [] := by
    rw [ne_eq, List.map_eq_nil_iff, List.range_eq_nil]
    omega
  rw [M.value_copies ν _ _ (by decide), M.value_copies ν _ _ (by decide),
    ← leftFold_map _ _ _ (distributes (ν "X")) nonempty, List.map_map]
  refine congrArg _ (List.map_congr_left fun index _ => ?_)
  rw [value_binary]
  simp [var, copyName]

/-- A product with a sum of any number of terms is the sum of the products. -/
theorem isLaw_distribute : M.IsLaw (.binary "*" (var "X") (variadicTrain "+" (var "A")))
    (variadicTrain "+" (.binary "*" (var "X") (var "A"))) where
  shaped := by decide
  variadic _ := ⟨by decide, by decide, Separate.of_no_underscore (by decide) (by decide)⟩
  holds := by
    intro count positive ν
    have shared : (Expr.binary "*" (var "X") (variadicTrain "+" (var "A"))).fixedVariables = ["X"] := by
      decide
    rw [shared]
    change M.value ν (train "+" (copies ["X"] (.binary "*" (var "X") (var "A")) count)) =
      M.value ν (.binary "*" (var "X") (train "+" (copies ["X"] (var "A") count)))
    rw [value_products ν distributes positive, value_binary]
    simp [var]

end

/-- Rewriting by a law keeps the value, at whatever address, in both directions. An address of a
pair asks that the operator of its train is associative. -/
theorem rewriting_keeps_value (M : Model D) (e : Expr) (shaped : e.WellShaped)
    (free : e.MarkerFree) (address : Address)
    (assoc : ∀ index train, address.pair = some index → e.nodeAt address.path = .ok train →
      train.isTrain = true → M.Associates train.symbol) (lhs rhs result : Expr) :
    (M.IsLaw lhs rhs → e.byEquationAt (equation lhs rhs) address = .ok result →
      result.WellShaped ∧ result.MarkerFree ∧ ∀ ν, M.value ν result = M.value ν e) ∧
    (M.IsLaw rhs lhs → e.byConverseAt (equation lhs rhs) address = .ok result →
      result.WellShaped ∧ result.MarkerFree ∧ ∀ ν, M.value ν result = M.value ν e) := by
  have plain : e.Plain := ⟨shaped, free⟩
  constructor
  · intro law stepped
    exact and_assoc.mp (law.byEquationAt plain assoc stepped)
  · intro law stepped
    -- Reading an equation from right to left is reading the one with its sides exchanged.
    have exchanged : e.byEquationAt (equation rhs lhs) address = .ok result := stepped
    exact and_assoc.mp (law.byEquationAt plain assoc exchanged)

/-- Two neighbouring factors inside a longer product are multiplied out. -/
theorem rewriting_keeps_value_product :
    let e := Expr.unary "-" (train "*" [var "x", train "+" [var "a", var "b"], var "y"])
    let result := Expr.unary "-" (train "*"
      [train "+" [.binary "*" (var "x") (var "a"), .binary "*" (var "x") (var "b")], var "y"])
    result.WellShaped ∧ result.MarkerFree ∧
      ∀ ν, integers.value ν result = integers.value ν e := by
  refine (rewriting_keeps_value integers _ (by decide) (by decide) ⟨[0], some 0⟩ ?_
    (.binary "*" (var "X") (variadicTrain "+" (var "A")))
    (variadicTrain "+" (.binary "*" (var "X") (var "A"))) _).1
    (isLaw_distribute integers_isRing.distributes) (by decide +kernel)
  intro index train _ reached _
  obtain rfl := Except.ok.inj reached
  exact integers_isRing.associates (by decide)

end Stepwise.Model
