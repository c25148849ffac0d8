import Stepwise.Action
import Stepwise.Collections
import Stepwise.Fault
import Stepwise.Text.Basic

/-!
Lines of a derivation and the written form of a history.
-/

namespace Stepwise

structure Line where
  action : Action
  expr : Expr
  label : Option String
  auto : Bool
  deriving DecidableEq

namespace Line

def byUser (action : Action) (expr : Expr) : Line := ⟨action, expr, none, false⟩

def byRule (label : Caption) (expr : Expr) : Line := ⟨.rule label, expr, none, true⟩

/-- The label of the line; an empty one does not count. -/
def name? (line : Line) : Option String := line.label.filter fun label => label ≠ ""

def text (line : Line) : String := line.action.text ++ ": " ++ line.expr.display

def numbered (index : Nat) (line : Line) : String := toString index ++ ". " ++ line.text

def debugText (line : Line) : String :=
  "ExpressionLine(" ++ line.text ++
    (match line.name? with
      | some name => ", label=" ++ Text.quoted name
      | none => "") ++
    (if line.auto then ", auto" else "") ++ ")"

def formatted (index : Nat) (line : Line) : String :=
  line.numbered index ++
    (match line.name? with
      | some name => "  [" ++ name ++ "]"
      | none => "") ++
    (if line.auto then "  (auto)" else "")

end Line

abbrev History := List Line

namespace History

def last? (history : History) : Option Expr := history.getLast?.map Line.expr

def formattedFrom (index : Nat) : History → List String
  | [] => []
  | line :: rest => line.formatted index :: formattedFrom (index + 1) rest

def formatted (history : History) : String := Text.joined "\n" (formattedFrom 0 history)

def withLabel (history : History) (label : Option String) (index : Int) : Attempt History :=
  match Index.get? history index with
  | none => .error .outOfRange
  | some line =>
      match Index.set? history index { line with label := label } with
      | some labelled => .ok labelled
      | none => .error .outOfRange

def resetTo (history : History) (index : Int) : Attempt History :=
  if 0 ≤ index ∧ index < history.length then .ok (history.take (index.toNat + 1))
  else .error (.noLine index)

end History

end Stepwise
