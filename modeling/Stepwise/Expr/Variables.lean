import Stepwise.Collections
import Stepwise.Expr.Basic

/-!
The variables of an expression in order of first occurrence, renaming, and the copies of a
variadic template. A copy renames every template variable that is not shared, so that distinct
copies have only the shared variables in common.
-/

namespace Stepwise.Expr

mutual

def variablesAfter (skipTemplates : Bool) (found : List String) : Expr → List String
  | node .var symbol _ => OrderedSet.insert found symbol
  | node kind _ children =>
      if skipTemplates && kind = .variadic then found
      else variablesAfterEach skipTemplates found children

def variablesAfterEach (skipTemplates : Bool) (found : List String) : List Expr → List String
  | [] => found
  | child :: rest =>
      variablesAfterEach skipTemplates (variablesAfter skipTemplates found child) rest

end

def variableNames (e : Expr) : List String := e.variablesAfter false []

/-- The distinct variables that occur outside variadic templates. -/
def fixedVariables (e : Expr) : List String := e.variablesAfter true []

mutual

def containsVariable : Expr → Bool
  | node .var _ _ => true
  | node _ _ children => anyContainsVariable children

def anyContainsVariable : List Expr → Bool
  | [] => false
  | child :: rest => containsVariable child || anyContainsVariable rest

end

mutual

def rename (names : String → String) : Expr → Expr
  | node .var symbol children => node .var (names symbol) children
  | node kind symbol children => node kind symbol (renameEach names children)

def renameEach (names : String → String) : List Expr → List Expr
  | [] => []
  | child :: rest => rename names child :: renameEach names rest

end

mutual

/-- Renames every node that carries `old`, operators and leaves alike. -/
def renameSymbol (old new : String) : Expr → Expr
  | node kind symbol children =>
      node kind (if symbol = old then new else symbol) (renameSymbolEach old new children)

def renameSymbolEach (old new : String) : List Expr → List Expr
  | [] => []
  | child :: rest => renameSymbol old new child :: renameSymbolEach old new rest

end

def copyName (shared : List String) (index : Int) (name : String) : String :=
  if name ∈ shared then name else name ++ "_" ++ toString index

def copy (shared : List String) (index : Int) (template : Expr) : Expr :=
  template.rename (copyName shared index)

def copiesFrom (shared : List String) (template : Expr) (first : Nat) : Nat → List Expr
  | 0 => []
  | count + 1 => copy shared first template :: copiesFrom shared template (first + 1) count

def copies (shared : List String) (template : Expr) (count : Nat) : List Expr :=
  copiesFrom shared template 1 count

theorem renameEach_eq_map (names : String → String) (es : List Expr) :
    renameEach names es = es.map (rename names) := by
  induction es with
  | nil => rfl
  | cons e es ih => simp [renameEach, ih]

@[simp] theorem length_copiesFrom (shared : List String) (template : Expr) (first count : Nat) :
    (copiesFrom shared template first count).length = count := by
  induction count generalizing first with
  | zero => rfl
  | succ count ih => simp [copiesFrom, ih]

end Stepwise.Expr
