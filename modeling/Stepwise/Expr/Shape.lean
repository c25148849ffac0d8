import Stepwise.Expr.Basic

/-!
Which child lists a kind of node admits. `shapeFault?` names the first rule that a child list
breaks; a tree is well shaped when no node of it breaks one.
-/

namespace Stepwise

inductive ShapeFault
  | leafWithChildren (kind : Kind)
  | needsOneChild (kind : Kind) (count : Nat)
  | needsTwoChildren (kind : Kind) (count : Nat)
  | emptyTrain
  /-- The variadic marker stands anywhere but alone under a train. -/
  | strayMarker
  deriving DecidableEq

def ShapeFault.message : ShapeFault → String
  | leafWithChildren kind => kind.name ++ " cannot have children"
  | needsOneChild kind count => kind.name ++ " needs exactly one child, got " ++ toString count
  | needsTwoChildren kind count => kind.name ++ " needs exactly two children, got " ++ toString count
  | emptyTrain => "AssocTrain needs at least one child"
  | strayMarker => "a Variadic marker must be the only child of an AssocTrain"

namespace Expr

def countFault? (kind : Kind) (count : Nat) : Option ShapeFault :=
  match kind with
  | .const | .var => if count = 0 then none else some (.leafWithChildren kind)
  | .unary | .variadic => if count = 1 then none else some (.needsOneChild kind count)
  | .binary | .statement => if count = 2 then none else some (.needsTwoChildren kind count)
  | .train => if count = 0 then some .emptyTrain else none
  | .call => none

def shapeFault? (kind : Kind) (children : List Expr) : Option ShapeFault :=
  match countFault? kind children.length with
  | some fault => some fault
  | none =>
      if children.any isMarker && !(kind = .train && children.length = 1) then some .strayMarker
      else none

mutual

def isWellShaped : Expr → Bool
  | node kind _ children => (shapeFault? kind children).isNone && areWellShaped children

def areWellShaped : List Expr → Bool
  | [] => true
  | child :: rest => isWellShaped child && areWellShaped rest

end

def WellShaped (e : Expr) : Prop := e.isWellShaped = true

instance (e : Expr) : Decidable e.WellShaped := inferInstanceAs (Decidable (_ = true))

theorem areWellShaped_iff (es : List Expr) : areWellShaped es = true ↔ ∀ e ∈ es, e.WellShaped := by
  induction es with
  | nil => simp [areWellShaped]
  | cons e es ih => simp [areWellShaped, ih, WellShaped]

theorem wellShaped_node (kind : Kind) (symbol : String) (children : List Expr) :
    (node kind symbol children).WellShaped ↔
      shapeFault? kind children = none ∧ ∀ child ∈ children, child.WellShaped := by
  simp only [WellShaped, isWellShaped, Bool.and_eq_true, Option.isNone_iff_eq_none]
  exact and_congr_right fun _ => areWellShaped_iff children

end Expr

end Stepwise
