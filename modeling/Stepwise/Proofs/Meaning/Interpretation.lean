import Mathlib.Algebra.Field.Rat
import Mathlib.Tactic.Ring
import Stepwise.Number.Literal
import Stepwise.Proofs.Meaning.Model

/-!
What expressions mean over the rationals. An interpretation gives the numerals and other constants
their values and the operators their functions; a train is the left fold of the binary operator
of its symbol. Sums, products and equations may be asked to have their usual meaning.
-/

namespace Stepwise

structure Interpretation where
  constant : String → ℚ
  unary : String → ℚ → ℚ
  binary : String → ℚ → ℚ → ℚ
  call : String → List ℚ → ℚ
  statement : String → ℚ → ℚ → ℚ

namespace Interpretation

def folded (f : ℚ → ℚ → ℚ) : List ℚ → ℚ
  | [] => 0
  | first :: rest => rest.foldl f first

def apply (I : Interpretation) : Kind → String → List ℚ → ℚ
  | .const, symbol, _ => I.constant symbol
  | .unary, symbol, [x] => I.unary symbol x
  | .binary, symbol, [x, y] => I.binary symbol x y
  | .statement, symbol, [x, y] => I.statement symbol x y
  | .call, symbol, values => I.call symbol values
  | .train, symbol, values => folded (I.binary symbol) values
  | _, _, _ => 0

mutual

def meaning (I : Interpretation) (ν : String → ℚ) : Expr → ℚ
  | .node .var symbol _ => ν symbol
  | .node kind symbol children => I.apply kind symbol (meaningEach I ν children)

def meaningEach (I : Interpretation) (ν : String → ℚ) : List Expr → List ℚ
  | [] => []
  | child :: rest => meaning I ν child :: meaningEach I ν rest

end

/-- The operations of arithmetic, the numerals that its rules mention, and equality have their usual
meaning; of division only the case of the divisor 1 is fixed. -/
structure Usual (I : Interpretation) : Prop where
  zero : I.constant "0" = 0
  one : I.constant "1" = 1
  two : I.constant "2" = 2
  add : ∀ x y, I.binary "+" x y = x + y
  sub : ∀ x y, I.binary "-" x y = x - y
  mul : ∀ x y, I.binary "*" x y = x * y
  neg : ∀ x, I.unary "-" x = -x
  div_one : ∀ x, I.binary "/" x 1 = x
  equal : ∀ x y, I.statement "=" x y = if x = y then 1 else 0

/-- Integers mean themselves, operators what they mean over the rationals, and calls nothing. -/
def standard : Interpretation where
  constant symbol :=
    match Literal.readInt symbol with
    | .ok number => number
    | .error _ => 0
  unary symbol x := if symbol = "-" then -x else x⁻¹
  binary symbol x y :=
    if symbol = "+" then x + y else if symbol = "-" then x - y
    else if symbol = "*" then x * y else x / y
  call _ _ := 0
  statement _ x y := if x = y then 1 else 0

theorem standard_usual : standard.Usual where
  zero := by
    have read : Literal.readInt "0" = .ok 0 := by decide +kernel
    simp [standard, read]
  one := by
    have read : Literal.readInt "1" = .ok 1 := by decide +kernel
    simp [standard, read]
  two := by
    have read : Literal.readInt "2" = .ok 2 := by decide +kernel
    simp [standard, read]
  add x y := by simp [standard]
  sub x y := by simp [standard]
  mul x y := by simp [standard]
  neg x := by simp [standard]
  div_one x := by simp [standard]
  equal x y := rfl

section

variable (I : Interpretation) (ν : String → ℚ)

theorem meaningEach_eq_map (es : List Expr) : I.meaningEach ν es = es.map (I.meaning ν) := by
  induction es with
  | nil => rfl
  | cons e es ih => simp [meaningEach, ih]

@[simp] theorem meaning_var (symbol : String) (children : List Expr) :
    I.meaning ν (.node .var symbol children) = ν symbol := by
  rw [meaning]

theorem meaning_node (kind : Kind) (symbol : String) (children : List Expr)
    (notVar : kind ≠ .var) :
    I.meaning ν (.node kind symbol children) =
      I.apply kind symbol (children.map (I.meaning ν)) := by
  rw [meaning, meaningEach_eq_map]
  exact notVar

@[simp] theorem meaning_variable (symbol : String) : I.meaning ν (.var symbol) = ν symbol :=
  meaning_var I ν symbol []

@[simp] theorem meaning_const (symbol : String) : I.meaning ν (.const symbol) = I.constant symbol := by
  rw [Expr.const, meaning_node _ _ _ _ _ (by decide)]
  rfl

@[simp] theorem meaning_unary (symbol : String) (operand : Expr) :
    I.meaning ν (.unary symbol operand) = I.unary symbol (I.meaning ν operand) := by
  rw [Expr.unary, meaning_node _ _ _ _ _ (by decide)]
  rfl

@[simp] theorem meaning_binary (symbol : String) (left right : Expr) :
    I.meaning ν (.binary symbol left right) =
      I.binary symbol (I.meaning ν left) (I.meaning ν right) := by
  rw [Expr.binary, meaning_node _ _ _ _ _ (by decide)]
  rfl

@[simp] theorem meaning_equation (lhs rhs : Expr) :
    I.meaning ν (.equation lhs rhs) = I.statement "=" (I.meaning ν lhs) (I.meaning ν rhs) := by
  rw [Expr.equation, meaning_node _ _ _ _ _ (by decide)]
  rfl

end

def toModel (I : Interpretation) : Model ℚ where
  operation := I.apply
  repetition _ _ _ := 0

theorem folded_eq_leftFold (f : ℚ → ℚ → ℚ) (values : List ℚ) :
    folded f values = leftFold f 0 values := by
  cases values with
  | nil => rfl
  | cons first rest => rfl

theorem apply_eq (I : Interpretation) (kind : Kind) (symbol : String) (values : List ℚ) :
    I.apply kind symbol values = I.toModel.apply kind symbol values := by
  cases kind with
  | train => exact folded_eq_leftFold (I.binary symbol) values
  | _ => rfl

theorem meaning_eq_value (I : Interpretation) (ν : String → ℚ) (e : Expr) :
    I.meaning ν e = I.toModel.value ν e := by
  induction e using Expr.templateInduction with
  | var symbol children => rw [meaning_var, Model.value_var]
  | variadicTrain symbol mark template =>
      rw [Model.value_variadicTrain, meaning_node _ _ _ _ _ (by decide), List.map_singleton,
        meaning_node _ _ _ _ _ (by decide)]
      rfl
  | other kind symbol children notVar plain each =>
      rw [meaning_node _ _ _ _ _ notVar, Model.value_node _ _ _ _ _ notVar plain,
        List.map_congr_left each, apply_eq]

end Interpretation

end Stepwise
