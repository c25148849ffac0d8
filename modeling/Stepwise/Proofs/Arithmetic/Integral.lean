import Stepwise.Proofs.Arithmetic.Calculation
import Stepwise.Proofs.Arithmetic.Numeral
import Stepwise.Proofs.Arithmetic.Overflow
import Stepwise.Proofs.Expr.Selection

/-!
Calculations in expressions of integers without quotients. All of their values are exact, so that
a part, or a pair of terms of a sum or a product, may be calculated first. Evaluation then gives the
same number, or breaks off as it did before.
-/

namespace Stepwise

namespace Operation

section

variable {exact : Int → Int → Int} {rounded : Double → Double → Double}

theorem foldLeft_ints (total : Int) (operands : List Int) :
    foldLeft (Number.combine exact rounded) (.int total) (operands.map .int) =
      .ok (some (.int (operands.foldl exact total))) := by
  induction operands generalizing total with
  | nil => rfl
  | cons first rest ih =>
      rw [List.map_cons, foldLeft, Number.combine_int]
      exact ih (exact total first)

theorem foldLeft_pair (assoc : ∀ x y z, exact (exact x y) z = exact x (exact y z)) (total : Int)
    (before : List Int) (x y : Int) (after : List Number) :
    foldLeft (Number.combine exact rounded) (.int total)
        (before.map .int ++ .int (exact x y) :: after) =
      foldLeft (Number.combine exact rounded) (.int total)
        (before.map .int ++ .int x :: .int y :: after) := by
  induction before generalizing total with
  | nil => simp only [List.map_nil, List.nil_append, foldLeft, Number.combine_int, assoc]
  | cons first rest ih =>
      simp only [List.map_cons, List.cons_append, foldLeft, Number.combine_int]
      exact ih (exact total first)

theorem onTwo_ints {operands : List Int} {n : Number}
    (applied : onTwo (Number.combine exact rounded) (operands.map .int) = .ok (some n)) :
    ∃ x y, operands = [x, y] ∧ n = .int (exact x y) := by
  by_cases two : operands.length = 2
  · obtain ⟨x, y, rfl⟩ := List.length_eq_two.mp two
    obtain rfl := Option.some.inj (Except.ok.inj applied)
    exact ⟨x, y, rfl, rfl⟩
  · rw [onTwo_eq_none (by simpa using two)] at applied
    simp at applied

end

theorem apply_ints {operation : Operation} (notDiv : operation ≠ div) (notInvert : operation ≠ invert)
    {operands : List Int} {n : Number} (applied : operation.apply (operands.map .int) = .ok (some n)) :
    ∃ m, n = .int m := by
  have two {exact : Int → Int → Int} {rounded : Double → Double → Double}
      (applied : onTwo (Number.combine exact rounded) (operands.map .int) = .ok (some n)) :
      ∃ m, n = .int m := by
    obtain ⟨x, y, _, rfl⟩ := onTwo_ints applied
    exact ⟨_, rfl⟩
  cases operation with
  | add => exact two applied
  | sub => exact two applied
  | mul => exact two applied
  | div => exact absurd rfl notDiv
  | negate =>
      by_cases one : operands.length = 1
      · obtain ⟨x, rfl⟩ := List.length_eq_one_iff.mp one
        exact ⟨-x, (Option.some.inj (Except.ok.inj applied)).symm⟩
      · rw [apply_one (Or.inl rfl) (by simpa using one)] at applied
        simp at applied
  | invert => exact absurd rfl notInvert
  | sum => exact ⟨_, (Option.some.inj (Except.ok.inj (applied.symm.trans (foldLeft_ints _ _))))⟩
  | product => exact ⟨_, (Option.some.inj (Except.ok.inj (applied.symm.trans (foldLeft_ints _ _))))⟩

end Operation

namespace Expr

/-- No quotient, and no constant that is a number but not an integer. -/
def integralNode (kind : Kind) (symbol : String) : Bool :=
  symbol ≠ "/" && (kind ≠ .const || (Number.read symbol).all Number.isInteger)

def IsIntegral (e : Expr) : Prop := e.allNodes (fun kind symbol _ => integralNode kind symbol) = true

instance (e : Expr) : Decidable e.IsIntegral := inferInstanceAs (Decidable (_ = true))

theorem isIntegral_node (kind : Kind) (symbol : String) (children : List Expr) :
    (node kind symbol children).IsIntegral ↔
      integralNode kind symbol = true ∧ ∀ child ∈ children, child.IsIntegral :=
  allNodes_node _ _ _ _

theorem ints_of_valueEach {es : List Expr}
    (each : ∀ e ∈ es, ∀ n, e.value = .ok (some n) → ∃ m, n = .int m) {operands : List Number}
    (valued : valueEach es = .ok (some operands)) : ∃ ints : List Int, operands = ints.map .int := by
  induction es generalizing operands with
  | nil => exact ⟨[], (Option.some.inj (Except.ok.inj valued)).symm⟩
  | cons first rest ih =>
      rcases here : first.value with fault | none | n
      · simp [valueEach, here] at valued
      · simp [valueEach, here] at valued
      · rw [valueEach_cons_of_ok here] at valued
        rcases later : valueEach rest with fault | none | others
        · simp [later, Except.map] at valued
        · simp [later, Except.map] at valued
        · obtain ⟨m, rfl⟩ := each first (by simp) n here
          obtain ⟨ints, rfl⟩ := ih (fun e member => each e (by simp [member])) later
          rw [later] at valued
          exact ⟨m :: ints, (Option.some.inj (Except.ok.inj valued)).symm⟩

theorem symbol_of_quotient {kind : Kind} {symbol : String} {operation : Operation}
    (known : Operation.ofNode? kind symbol = some operation)
    (quotient : operation = .div ∨ operation = .invert) : symbol = "/" := by
  unfold Operation.ofNode? at known
  rcases quotient with rfl | rfl
  all_goals split at known <;> simp_all

theorem integralNode_iff (kind : Kind) (symbol : String) :
    integralNode kind symbol = true ↔
      symbol ≠ "/" ∧ (kind = .const → ∀ n, Number.read symbol = some n → n.isInteger = true) := by
  by_cases isConst : kind = .const
  · simp [integralNode, isConst, Option.all_eq_true_iff_get, Option.eq_some_iff_get_eq]
  · simp [integralNode, isConst]

theorem IsIntegral.value_eq_int {e : Expr} (integral : e.IsIntegral) {n : Number}
    (valued : e.value = .ok (some n)) : ∃ m, n = .int m := by
  induction e using Expr.induction generalizing n with
  | node kind symbol children each =>
      obtain ⟨here, below⟩ := (isIntegral_node _ _ _).mp integral
      by_cases isConst : kind = .const
      · subst isConst
        rw [value] at valued
        have whole := ((integralNode_iff _ _).mp here).2 rfl n (Except.ok.inj valued)
        cases n with
        | int m => exact ⟨m, rfl⟩
        | double d => simp [Number.isInteger] at whole
      · obtain ⟨operation, operands, known, operandsValued⟩ := value_node isConst symbol children valued
        obtain ⟨ints, rfl⟩ := ints_of_valueEach
          (fun child member m => each child member (below child member)) operandsValued
        rw [value_operation known, operandsValued] at valued
        have noSlash := ((integralNode_iff _ _).mp here).1
        rcases applied : operation.apply (ints.map .int) with fault | result
        · simp [applied] at valued
        · simp only [applied] at valued
          obtain ⟨rfl, _⟩ := finiteOnly_eq_some valued
          exact Operation.apply_ints
            (fun isDiv => noSlash (symbol_of_quotient known (Or.inl isDiv)))
            (fun isInvert => noSlash (symbol_of_quotient known (Or.inr isInvert))) applied

theorem valueEach_append (before after : List Expr) :
    valueEach (before ++ after) =
      match valueEach before with
      | .error fault => .error fault
      | .ok none => .ok none
      | .ok (some operands) => (valueEach after).map (Option.map (operands ++ ·)) := by
  induction before with
  | nil =>
    rcases others : valueEach after with fault | none | operands <;>
      simp [valueEach, others, Except.map]
  | cons first rest ih =>
      rcases here : first.value with fault | none | n
      · simp [valueEach, here]
      · simp [valueEach, here]
      · rw [List.cons_append, valueEach_cons_of_ok here, valueEach_cons_of_ok here, ih]
        rcases valueEach rest with fault | none | operands
        · rfl
        · rfl
        · rcases valueEach after with fault | none | others <;> rfl

theorem valueEach_congr {before after : List Expr} {child other : Expr}
    (same : other.value = child.value) :
    valueEach (before ++ other :: after) = valueEach (before ++ child :: after) := by
  rw [valueEach_append, valueEach_append, valueEach, valueEach, same]

theorem value_congr {kind : Kind} {symbol : String} {children others : List Expr}
    (same : valueEach others = valueEach children) :
    (node kind symbol others).value = (node kind symbol children).value := by
  by_cases isConst : kind = .const
  · subst isConst
    rw [value, value]
  · rw [value, value, same]
    · exact isConst
    · exact isConst

theorem values_of_valueEach {first second : Expr} {x y : Number}
    (valued : valueEach [first, second] = .ok (some [x, y])) :
    first.value = .ok (some x) ∧ second.value = .ok (some y) := by
  rcases here : first.value with fault | none | m
  · simp [valueEach, here] at valued
  · simp [valueEach, here] at valued
  · rcases there : second.value with fault | none | n
    · simp [valueEach, here, there] at valued
    · simp [valueEach, here, there] at valued
    · simp only [valueEach, here, there, Except.ok.injEq, Option.some.injEq, List.cons.injEq,
        and_true] at valued
      exact ⟨by rw [valued.1], by rw [valued.2]⟩

section

variable {symbol : String} {before after : List Expr} {left right new : Expr}

theorem terms_of_pair (integral : (binary symbol left right).IsIntegral) {operation : Operation}
    (known : Operation.ofNode? .binary symbol = some operation) {exact : Int → Int → Int}
    {rounded : Double → Double → Double}
    (applies : ∀ operands, operation.apply operands =
      Operation.onTwo (Number.combine exact rounded) operands) {n : Int}
    (valued : (binary symbol left right).value = .ok (some (.int n))) :
    ∃ x y, left.value = .ok (some (.int x)) ∧ right.value = .ok (some (.int y)) ∧
      n = exact x y := by
  obtain ⟨other, operands, alsoKnown, each⟩ := value_node (by decide) symbol [left, right] valued
  obtain rfl := Option.some.inj (known.symm.trans alsoKnown)
  obtain ⟨ints, rfl⟩ := ints_of_valueEach
    (fun term member n => (((isIntegral_node _ _ _).mp integral).2 term member).value_eq_int) each
  rw [binary, value_operation known, each] at valued
  rcases applied : operation.apply (ints.map .int) with fault | result
  · simp [applied] at valued
  · simp only [applied] at valued
    obtain ⟨rfl, _⟩ := finiteOnly_eq_some valued
    rw [applies] at applied
    obtain ⟨x, y, rfl, same⟩ := Operation.onTwo_ints applied
    obtain ⟨here, there⟩ := values_of_valueEach each
    exact ⟨x, y, here, there, Number.int.inj same⟩

/-- A train that folds an associative operation has the value that it has with two of its terms
combined, where the terms before them are integers. -/
theorem value_pair_of_fold (before_integral : ∀ term ∈ before, term.IsIntegral)
    {operation : Operation} (known : Operation.ofNode? .train symbol = some operation)
    {exact : Int → Int → Int} {rounded : Double → Double → Double} {start : Int}
    (folds : ∀ operands, operation.apply operands =
      Operation.foldLeft (Number.combine exact rounded) (.int start) operands)
    (assoc : ∀ x y z, exact (exact x y) z = exact x (exact y z)) {x y : Int}
    (leftValue : left.value = .ok (some (.int x))) (rightValue : right.value = .ok (some (.int y)))
    (newValue : new.value = .ok (some (.int (exact x y)))) :
    (node .train symbol (before ++ new :: after)).value =
      (node .train symbol (before ++ left :: right :: after)).value := by
  rw [value_operation known, value_operation known, valueEach_append, valueEach_append,
    valueEach_cons_of_ok newValue, valueEach_cons_of_ok leftValue, valueEach_cons_of_ok rightValue]
  rcases earlier : valueEach before with fault | none | operands
  · rfl
  · rfl
  · obtain ⟨ints, rfl⟩ := ints_of_valueEach
      (fun term member n => (before_integral term member).value_eq_int) earlier
    rcases valueEach after with fault | none | others
    · rfl
    · rfl
    · simp only [Except.map, Option.map, folds,
        Operation.foldLeft_pair assoc start ints x y others]

end

theorem value_of_no_operation {kind : Kind} {symbol : String} (notConst : kind ≠ .const)
    (unknown : Operation.ofNode? kind symbol = none) (children : List Expr) :
    (node kind symbol children).value = .ok none := by
  rw [value, unknown]
  exact notConst

theorem IsIntegral.pair {kind : Kind} {symbol : String} {before after : List Expr}
    {left right : Expr}
    (integral : (node kind symbol (before ++ left :: right :: after)).IsIntegral) :
    (binary symbol left right).IsIntegral := by
  obtain ⟨here, each⟩ := (isIntegral_node _ _ _).mp integral
  refine (isIntegral_node _ _ _).mpr ⟨?_, fun term member => each term ?_⟩
  · exact (integralNode_iff _ _).mpr ⟨((integralNode_iff _ _).mp here).1, nofun⟩
  · simp only [List.mem_cons, List.not_mem_nil, or_false] at member
    rcases member with rfl | rfl <;> simp

theorem value_pair {symbol : String} {before after : List Expr} {left right new : Expr}
    (integral : (node .train symbol (before ++ left :: right :: after)).IsIntegral) {n : Int}
    (valued : (binary symbol left right).value = .ok (some (.int n)))
    (same : new.value = .ok (some (.int n))) :
    (node .train symbol (before ++ new :: after)).value =
      (node .train symbol (before ++ left :: right :: after)).value := by
  have earlier : ∀ term ∈ before, term.IsIntegral := fun term member =>
    ((isIntegral_node _ _ _).mp integral).2 term (by simp [member])
  by_cases isSum : symbol = "+"
  · subst isSum
    obtain ⟨x, y, leftValue, rightValue, rfl⟩ := terms_of_pair integral.pair rfl (fun _ => rfl) valued
    exact value_pair_of_fold earlier rfl (fun _ => rfl) Int.add_assoc leftValue rightValue same
  · by_cases isProduct : symbol = "*"
    · subst isProduct
      obtain ⟨x, y, leftValue, rightValue, rfl⟩ :=
        terms_of_pair integral.pair rfl (fun _ => rfl) valued
      exact value_pair_of_fold earlier rfl (fun _ => rfl) Int.mul_assoc leftValue rightValue same
    · have unknown : Operation.ofNode? .train symbol = none := by
        unfold Operation.ofNode?
        split <;> simp_all
      rw [value_of_no_operation (by decide) unknown, value_of_no_operation (by decide) unknown]

theorem value_replacePair {e new target result : Expr} {index : Int} (integral : e.IsIntegral)
    (found : e.pairAt index = .ok target) {n : Int} (valued : target.value = .ok (some (.int n)))
    (same : new.value = .ok (some (.int n))) (replaced : e.replacePair new index = .ok result) :
    result.value = e.value := by
  obtain ⟨symbol, before, left, right, after, rfl, rfl, rebuild⟩ := pairAt_cases found
  rw [rebuild] at replaced
  obtain rfl := eq_of_build replaced
  exact value_pair integral valued same

theorem value_replace {path : List Int} {pair : Option Int} {e new target result : Expr}
    (integral : e.IsIntegral) (resolved : e.resolve ⟨path, pair⟩ = .ok target) {n : Int}
    (valued : target.value = .ok (some (.int n))) (same : new.value = .ok (some (.int n)))
    (replaced : e.replace new ⟨path, pair⟩ = .ok result) : result.value = e.value := by
  induction path generalizing e result with
  | nil =>
      cases pair with
      | none =>
          obtain rfl := Except.ok.inj resolved
          obtain rfl := Except.ok.inj replaced
          exact same.trans valued.symm
      | some index => exact value_replacePair integral resolved valued same replaced
  | cons index path ih =>
      obtain ⟨child, known, inner, below, rebuilt⟩ := replace_cons.mp replaced
      obtain ⟨_, sameChild, resolvedBelow⟩ := resolve_cons.mp resolved
      obtain rfl := Option.some.inj (known.symm.trans sameChild)
      obtain ⟨before, after, parts, others⟩ := childAt?_cases known
      obtain ⟨kind, symbol, children⟩ := e
      rw [children_node] at parts
      subst parts
      rw [others] at rebuilt
      obtain rfl := eq_of_build rebuilt
      have childIntegral := ((isIntegral_node _ _ _).mp integral).2 child (by simp)
      exact value_congr (valueEach_congr (ih childIntegral resolvedBelow below))

theorem IsIntegral.resolve {path : List Int} {pair : Option Int} {e target : Expr}
    (integral : e.IsIntegral) (resolved : e.resolve ⟨path, pair⟩ = .ok target) :
    target.IsIntegral := by
  induction path generalizing e with
  | nil =>
      cases pair with
      | none => exact Except.ok.inj resolved ▸ integral
      | some index =>
          obtain ⟨symbol, before, left, right, after, rfl, rfl, _⟩ := pairAt_cases resolved
          exact integral.pair
  | cons index path ih =>
      obtain ⟨child, known, below⟩ := resolve_cons.mp resolved
      obtain ⟨before, after, parts, _⟩ := childAt?_cases known
      obtain ⟨kind, symbol, children⟩ := e
      rw [children_node] at parts
      subst parts
      exact ih (((isIntegral_node _ _ _).mp integral).2 child (by simp)) below

theorem IsIntegral.graft {kind : Kind} {symbol : String} {before : List Expr} (middle : List Expr)
    {after : List Expr} (integral : (node kind symbol (before ++ (middle ++ after))).IsIntegral)
    {new : Expr} (newIntegral : new.IsIntegral) :
    (node kind symbol (before ++ new :: after)).IsIntegral := by
  obtain ⟨here, each⟩ := (isIntegral_node _ _ _).mp integral
  refine (isIntegral_node _ _ _).mpr ⟨here, ?_⟩
  intro child member
  simp only [List.mem_append, List.mem_cons] at member
  rcases member with inBefore | rfl | inAfter
  · exact each child (by simp [inBefore])
  · exact newIntegral
  · exact each child (by simp [inAfter])

theorem IsIntegral.replace {path : List Int} {pair : Option Int} {e new target result : Expr}
    (integral : e.IsIntegral) (newIntegral : new.IsIntegral)
    (resolved : e.resolve ⟨path, pair⟩ = .ok target)
    (replaced : e.replace new ⟨path, pair⟩ = .ok result) : result.IsIntegral := by
  induction path generalizing e result with
  | nil =>
      cases pair with
      | none => exact Except.ok.inj replaced ▸ newIntegral
      | some index =>
          obtain ⟨symbol, before, left, right, after, rfl, rfl, rebuild⟩ := pairAt_cases resolved
          rw [replace_pair, rebuild] at replaced
          obtain rfl := eq_of_build replaced
          exact IsIntegral.graft [left, right] integral newIntegral
  | cons index path ih =>
      obtain ⟨child, known, inner, below, rebuilt⟩ := replace_cons.mp replaced
      obtain ⟨_, sameChild, resolvedBelow⟩ := resolve_cons.mp resolved
      obtain rfl := Option.some.inj (known.symm.trans sameChild)
      obtain ⟨before, after, parts, others⟩ := childAt?_cases known
      obtain ⟨kind, symbol, children⟩ := e
      rw [children_node] at parts
      subst parts
      rw [others] at rebuilt
      obtain rfl := eq_of_build rebuilt
      have childIntegral := ((isIntegral_node _ _ _).mp integral).2 child (by simp)
      exact IsIntegral.graft [child] integral (ih childIntegral resolvedBelow below)

/-! Calculations. -/

theorem isFinite_of_isCalculable {e : Expr} (calculable : e.isCalculable = .ok true) {n : Number}
    (valued : e.value = .ok (some n)) : n.isFinite = .ok true := by
  obtain ⟨kind, symbol, children⟩ := e
  have notConst : kind ≠ .const := by
    rintro rfl
    simp [isCalculable, isLeaf, Kind.isLeaf] at calculable
  obtain ⟨operation, operands, known, _⟩ := value_node notConst symbol children valued
  exact isFinite_of_value known valued

theorem isNumeralOf_calculated {target : Expr} (calculable : target.isCalculable = .ok true)
    {n : Int} (valued : target.value = .ok (some (.int n))) :
    IsNumeralOf n (ofNumber (.int n)) ∧ (ofNumber (.int n)).value = .ok (some (.int n)) := by
  have within := Number.lt_of_isFinite (isFinite_of_isCalculable calculable valued)
  have numeral := isNumeralOf_of_isReadable (Literal.isReadable_of_lt (by omega : n.natAbs < _))
  exact ⟨numeral, numeral.denotes.value within⟩

theorem IsNumeralOf.isIntegral {n : Int} {e : Expr} (numeral : IsNumeralOf n e) : e.IsIntegral := by
  have leaf {symbol : String} {m : Int} (read : Literal.readInt symbol = .ok m) :
      (const symbol).IsIntegral := by
    have noSlash : symbol ≠ "/" := by
      rintro rfl
      have unread : Literal.readInt "/" = .error (.notAnInteger "/") := by decide +kernel
      simp [unread] at read
    refine (isIntegral_node _ _ _).mpr ⟨(integralNode_iff _ _).mpr ⟨noSlash, ?_⟩, nofun⟩
    intro _ n known
    rw [Number.read, read] at known
    exact Option.some.inj known ▸ rfl
  cases numeral with
  | natural _ read => exact leaf read
  | negative _ read =>
      refine (isIntegral_node _ _ _).mpr ⟨by decide, ?_⟩
      intro child member
      exact List.mem_singleton.mp member ▸ leaf read

theorem kept_of_calculateAt {e result : Expr} {address : Address} {name : String}
    (integral : e.IsIntegral) (calculated : e.calculateAt address = .ok (result, name)) :
    result.IsIntegral ∧ result.value = e.value ∧
      ∃ target n, e.resolve address = .ok target ∧ target.value = .ok (some (.int n)) ∧
        e.replace (ofNumber (.int n)) address = .ok result ∧
        IsNumeralOf n (ofNumber (.int n)) ∧ (ofNumber (.int n)).value = target.value := by
  obtain ⟨path, pair⟩ := address
  obtain ⟨target, number, resolved, calculable, valued, replaced⟩ :=
    calculated_of_calculateAt calculated
  obtain ⟨n, rfl⟩ := (integral.resolve resolved).value_eq_int valued
  obtain ⟨numeral, readBack⟩ := isNumeralOf_calculated calculable valued
  exact ⟨integral.replace numeral.isIntegral resolved replaced,
    value_replace integral resolved valued readBack replaced,
    target, n, resolved, valued, replaced, numeral, readBack.trans valued.symm⟩

/-- A calculation puts a numeral of the same value in the place of a part, and the whole keeps its
value, which is an integer if there is one. -/
theorem calculation_keeps_value {e result : Expr} {address : Address} {name : String}
    (integral : e.IsIntegral) (calculated : e.calculateAt address = .ok (result, name)) :
    result.value = e.value ∧ (∀ n, e.value = .ok (some n) → ∃ m, n = .int m) ∧
      ∃ target n, e.resolve address = .ok target ∧ target.value = .ok (some (.int n)) ∧
        e.replace (ofNumber (.int n)) address = .ok result ∧
        IsNumeralOf n (ofNumber (.int n)) ∧ (ofNumber (.int n)).value = target.value := by
  obtain ⟨_, same, parts⟩ := kept_of_calculateAt integral calculated
  exact ⟨same, fun _ => integral.value_eq_int, parts⟩

/-- The last two terms of a sum of three, one of them a difference, come to a negative number. -/
theorem calculation_keeps_value_of_sum :
    let e := train "+" [const "4", binary "-" (const "2") (const "7"), const "3"]
    let result := train "+" [const "4", unary "-" (const "2")]
    (e.IsIntegral ∧
      e.calculateAt ⟨[], some 1⟩ = .ok (result, "Calculate 2 - 7 + 3 = -2")) ∧
    result.value = e.value ∧ e.value = .ok (some (.int 2)) := by
  intro e result
  let target := binary "+" (binary "-" (const "2") (const "7")) (const "3")
  have integral : e.IsIntegral := by decide +kernel
  have calculable : target.isCalculable = .ok true := by decide +kernel
  have valued : target.value = .ok (some (.int (-2))) := by decide +kernel
  have named : "Calculate " ++ target.toInfix false ++ " = " ++ (Number.int (-2)).text =
      "Calculate 2 - 7 + 3 = -2" := by decide +kernel
  have calculated : e.calculateAt ⟨[], some 1⟩ = .ok (result, "Calculate 2 - 7 + 3 = -2") :=
    named ▸ calculateAt_of_replace rfl rfl calculable valued rfl
  exact ⟨⟨integral, calculated⟩, (calculation_keeps_value integral calculated).1,
    by decide +kernel⟩

end Expr

end Stepwise
