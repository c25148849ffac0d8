import Stepwise.Proofs.Expr.Substitution
import Stepwise.Proofs.Meaning.Fold

/-!
What expressions mean over an arbitrary domain. A model gives every operator, of whatever kind, a
function of the values of its operands. A train is the left fold of the binary operator of its
symbol, and a variadic train is some function of the value of its template.
-/

namespace Stepwise

universe u

structure Model (D : Type u) where
  operation : Kind → String → List D → D
  /-- The value of a variadic train, given its symbol, that of its marker, and the value of the
  template. -/
  repetition : String → String → D → D

namespace Model

variable {D : Type u}

def unary (M : Model D) (symbol : String) (x : D) : D := M.operation .unary symbol [x]

def binary (M : Model D) (symbol : String) (x y : D) : D := M.operation .binary symbol [x, y]

def constant (M : Model D) (symbol : String) : D := M.operation .const symbol []

def Associates (M : Model D) (symbol : String) : Prop :=
  ∀ x y z, M.binary symbol (M.binary symbol x y) z = M.binary symbol x (M.binary symbol y z)

def apply (M : Model D) : Kind → String → List D → D
  | .train, symbol, values => leftFold (M.binary symbol) (M.operation .train symbol []) values
  | kind, symbol, values => M.operation kind symbol values

mutual

def value (M : Model D) (ν : String → D) : Expr → D
  | .node .var symbol _ => ν symbol
  | .node .train symbol [.node .variadic mark [template]] =>
      M.repetition symbol mark (value M ν template)
  | .node kind symbol children => M.apply kind symbol (valueEach M ν children)

def valueEach (M : Model D) (ν : String → D) : List Expr → List D
  | [] => []
  | child :: rest => value M ν child :: valueEach M ν rest

end

section

variable (M : Model D) (ν : String → D)

theorem valueEach_eq_map (es : List Expr) : M.valueEach ν es = es.map (M.value ν) := by
  induction es with
  | nil => rfl
  | cons e es ih => simp [valueEach, ih]

@[simp] theorem value_var (symbol : String) (children : List Expr) :
    M.value ν (.node .var symbol children) = ν symbol := by
  rw [value]

@[simp] theorem value_variadicTrain (symbol mark : String) (template : Expr) :
    M.value ν (.node .train symbol [.node .variadic mark [template]]) =
      M.repetition symbol mark (M.value ν template) := by
  rw [value]

theorem value_node (kind : Kind) (symbol : String) (children : List Expr) (notVar : kind ≠ .var)
    (plain : (Expr.node kind symbol children).template? = none) :
    M.value ν (.node kind symbol children) = M.apply kind symbol (children.map (M.value ν)) := by
  rw [value, valueEach_eq_map]
  · exact notVar
  · rintro mark template rfl rfl
    simp [Expr.template?] at plain

theorem value_unary (symbol : String) (operand : Expr) :
    M.value ν (.unary symbol operand) = M.unary symbol (M.value ν operand) :=
  M.value_node ν _ _ _ (by decide) rfl

theorem value_binary (symbol : String) (left right : Expr) :
    M.value ν (.binary symbol left right) =
      M.binary symbol (M.value ν left) (M.value ν right) :=
  M.value_node ν _ _ _ (by decide) rfl

theorem value_const (symbol : String) : M.value ν (.const symbol) = M.constant symbol :=
  M.value_node ν _ _ _ (by decide) rfl

theorem value_train {symbol : String} {terms : List Expr}
    (plain : (Expr.train symbol terms).template? = none) :
    M.value ν (.train symbol terms) =
      leftFold (M.binary symbol) (M.operation .train symbol []) (terms.map (M.value ν)) :=
  M.value_node ν _ _ _ (by decide) plain

theorem value_subst {e : Expr} (free : e.MarkerFree) (σ : String → Expr)
    (noMarkers : ∀ name, (σ name).isMarker = false) :
    M.value ν (e.subst σ) = M.value (fun name => M.value ν (σ name)) e := by
  induction e using Expr.induction with
  | node kind symbol children each =>
      obtain ⟨_, inner⟩ := (Expr.markerFree_node _ _ _).mp free
      by_cases isVar : kind = .var
      · subst isVar
        rw [Expr.subst_var, value_var]
      · have stays : (Expr.node kind symbol (children.map (Expr.subst σ))).template? = none := by
          apply Expr.template?_of_no_marker
          simp only [List.mem_map]
          rintro _ ⟨child, member, rfl⟩
          rw [Expr.isMarker_subst σ noMarkers]
          exact (inner child member).isMarker_eq_false
        rw [Expr.subst_node _ _ _ _ isVar, value_node _ _ _ _ _ isVar stays,
          value_node _ _ _ _ _ isVar free.template?_eq_none, List.map_map]
        exact congrArg (M.apply kind symbol)
          (List.map_congr_left fun child member => each child member (inner child member))

end

end Model

end Stepwise
