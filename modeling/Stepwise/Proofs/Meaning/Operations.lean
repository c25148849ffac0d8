import Mathlib.Algebra.Field.Defs
import Mathlib.Algebra.BigOperators.Group.List.Basic
import Stepwise.Proofs.Expr.Lens
import Stepwise.Proofs.Meaning.Interpretation

/-!
Expressions over arbitrary operations. Every operator, of whatever kind, is a function of the values
of its operands, trains and markers included. Of a field only sums, differences, products, quotients
and negatives are asked to be what they are called.
-/

namespace Stepwise

universe u

structure Operations (D : Type u) where
  apply : Kind → String → List D → D

namespace Operations

variable {D : Type u}

mutual

def value (F : Operations D) (ν : String → D) : Expr → D
  | .node .var symbol _ => ν symbol
  | .node kind symbol children => F.apply kind symbol (valueEach F ν children)

def valueEach (F : Operations D) (ν : String → D) : List Expr → List D
  | [] => []
  | child :: rest => value F ν child :: valueEach F ν rest

end

section

variable (F : Operations D) (ν : String → D)

theorem valueEach_eq_map (es : List Expr) : F.valueEach ν es = es.map (F.value ν) := by
  induction es with
  | nil => rfl
  | cons e es ih => simp [valueEach, ih]

@[simp] theorem value_var (symbol : String) (children : List Expr) :
    F.value ν (.node .var symbol children) = ν symbol := by
  rw [value]

theorem value_node (kind : Kind) (symbol : String) (children : List Expr) (notVar : kind ≠ .var) :
    F.value ν (.node kind symbol children) = F.apply kind symbol (children.map (F.value ν)) := by
  rw [value, valueEach_eq_map]
  exact notVar

theorem value_binary (symbol : String) (left right : Expr) :
    F.value ν (.binary symbol left right) =
      F.apply .binary symbol [F.value ν left, F.value ν right] :=
  F.value_node ν _ _ _ (by decide)

end

theorem values_perm (value : Expr → D) {terms : List Expr} {place : Nat} {operand : Expr}
    (stands : terms[place]? = some operand) :
    (value operand :: (terms.eraseIdx place).map value).Perm (terms.map value) := by
  obtain ⟨inside, rfl⟩ := List.getElem?_eq_some_iff.mp stands
  exact (List.getElem_cons_eraseIdx_perm inside).map value

def ofInterpretation (I : Interpretation) : Operations ℚ := ⟨I.apply⟩

theorem value_replace (F : Operations D) {ν : String → D} {e part new result : Expr}
    {path : List Int} (same : F.value ν new = F.value ν part)
    (reached : e.nodeAt path = .ok part) (replaced : e.replace new (.ofPath path) = .ok result) :
    F.value ν result = F.value ν e := by
  induction path generalizing e result with
  | nil =>
      obtain rfl := Except.ok.inj reached
      obtain rfl := Except.ok.inj replaced
      exact same
  | cons index path ih =>
      obtain ⟨place, child, rfl, known, below⟩ := Expr.nodeAt_below.mp reached
      obtain ⟨other, sameChild, inner, samePlace, knownToo, put, rebuilt⟩ :=
        Expr.replace_below.mp replaced
      obtain rfl := Int.ofNat.inj samePlace
      obtain rfl := Option.some.inj (known.symm.trans knownToo)
      obtain ⟨kind, symbol, children⟩ := e
      obtain rfl := Expr.eq_of_build rebuilt
      by_cases isVar : kind = .var
      · subst isVar
        simp
      · have kept : (children.map (F.value ν)).set place (F.value ν inner) =
            children.map (F.value ν) := by
          rw [Expr.children_node] at known
          obtain ⟨inside, rfl⟩ := List.getElem?_eq_some_iff.mp known
          rw [ih below put, ← List.map_set, List.set_getElem_self]
        rw [Expr.kind_node, Expr.symbol_node, value_node _ _ _ _ _ isVar,
          value_node _ _ _ _ _ isVar, Expr.children_node, List.map_set, kept]

variable {K : Type u} [Field K]

/-- The operators of arithmetic have their usual meaning, and a train of one is its left fold. A
quotient is fixed only where the divisor is not zero. -/
structure IsArithmetic (F : Operations K) : Prop where
  add : ∀ x y, F.apply .binary "+" [x, y] = x + y
  sub : ∀ x y, F.apply .binary "-" [x, y] = x - y
  mul : ∀ x y, F.apply .binary "*" [x, y] = x * y
  div : ∀ x y, y ≠ 0 → F.apply .binary "/" [x, y] = x / y
  neg : ∀ x, F.apply .unary "-" [x] = -x
  train : ∀ symbol ∈ ["+", "-", "*"], ∀ first rest,
    F.apply .train symbol (first :: rest) =
      rest.foldl (fun x y => F.apply .binary symbol [x, y]) first

theorem standard_isArithmetic : (ofInterpretation .standard).IsArithmetic where
  add x y := by simp [ofInterpretation, Interpretation.apply, Interpretation.standard]
  sub x y := by simp [ofInterpretation, Interpretation.apply, Interpretation.standard]
  mul x y := by simp [ofInterpretation, Interpretation.apply, Interpretation.standard]
  div x y _ := by simp [ofInterpretation, Interpretation.apply, Interpretation.standard]
  neg x := by simp [ofInterpretation, Interpretation.apply, Interpretation.standard]
  train _ _ _ _ := rfl

section

variable {F : Operations K} (arithmetic : F.IsArithmetic) (ν : String → K)

include arithmetic

theorem IsArithmetic.value_group {symbol : String} (known : symbol ∈ ["+", "-", "*"])
    {f : K → K → K} (means : ∀ x y, F.apply .binary symbol [x, y] = f x y) {z : K}
    (neutral : ∀ x, f z x = x) {kind : Kind} (joined : kind = .binary ∨ kind = .train)
    {terms : List Expr} (shaped : (Expr.node kind symbol terms).WellShaped) :
    F.value ν (.node kind symbol terms) = (terms.map (F.value ν)).foldl f z := by
  have count := ((Expr.shapeFault?_eq_none_iff _ _).mp
    ((Expr.wellShaped_node _ _ _).mp shaped).1).1
  rcases joined with rfl | rfl
  · obtain ⟨left, right, rfl⟩ := List.length_eq_two.mp (by simpa [Expr.countFault?] using count)
    simp [value_node, means, neutral]
  · cases terms with
    | nil => simp [Expr.countFault?] at count
    | cons first rest =>
        simp [value_node, arithmetic.train symbol known, means, neutral]

theorem IsArithmetic.value_sum {kind : Kind} (joined : kind = .binary ∨ kind = .train)
    {terms : List Expr} (shaped : (Expr.node kind "+" terms).WellShaped) :
    F.value ν (.node kind "+" terms) = (terms.map (F.value ν)).sum := by
  rw [List.sum_eq_foldl]
  exact arithmetic.value_group ν (by simp) arithmetic.add zero_add joined shaped

theorem IsArithmetic.value_product {kind : Kind} (joined : kind = .binary ∨ kind = .train)
    {terms : List Expr} (shaped : (Expr.node kind "*" terms).WellShaped) :
    F.value ν (.node kind "*" terms) = (terms.map (F.value ν)).prod := by
  rw [List.prod_eq_foldl]
  exact arithmetic.value_group ν (by simp) arithmetic.mul one_mul joined shaped

end

end Operations

end Stepwise
