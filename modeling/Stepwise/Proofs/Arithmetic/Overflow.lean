import Mathlib.Data.List.Basic
import Stepwise.Arithmetic
import Stepwise.Proofs.Number.Range

/-!
Where the evaluation of an expression breaks off. It does so at the first operation, from the left
and from the leaves, whose result is an integer beyond the range of the doubles, that has such an
integer meet a double, or whose quotient of two integers is beyond the range. Otherwise it returns,
and what it returns for an operation is in the range.
-/

namespace Stepwise

namespace Operation

def IsDefined : Operation → List Number → Prop
  | add, operands | sub, operands | mul, operands => operands.length = 2
  | div, operands => ∃ a b, operands = [a, b] ∧ b.isZero = false
  | negate, operands => operands.length = 1
  | invert, operands => ∃ a, operands = [a] ∧ a.isZero = false
  | sum, _ | product, _ => True

inductive Overflows : Operation → List Number → OverflowFault → Prop
  | mixed {operation : Operation} {a b : Number} :
      operation = add ∨ operation = sub ∨ operation = mul → a.Clashes b →
        Overflows operation [a, b] .integerTooLarge
  | mixedQuotient {a b : Number} :
      b.isZero = false → a.Clashes b → Overflows div [a, b] .integerTooLarge
  | quotient {m n : Int} :
      n ≠ 0 → Double.integerLimit * n.natAbs ≤ m.natAbs →
        Overflows div [.int m, .int n] .quotientTooLarge
  | mixedSum {before after : List Number} {total operand : Number} :
      foldLeft Number.add (.int 0) before = .ok (some total) → total.Clashes operand →
        Overflows sum (before ++ operand :: after) .integerTooLarge
  | mixedProduct {before after : List Number} {total operand : Number} :
      foldLeft Number.mul (.int 1) before = .ok (some total) → total.Clashes operand →
        Overflows product (before ++ operand :: after) .integerTooLarge
  | result {operation : Operation} {operands : List Number} {n : Number} :
      operation.apply operands = .ok (some n) → n.IsBeyond →
        Overflows operation operands .integerTooLarge

section

variable {combine : Number → Number → Except OverflowFault Number} {fault : OverflowFault}

theorem onTwo_eq_error {operands : List Number} (failed : onTwo combine operands = .error fault) :
    ∃ a b, operands = [a, b] ∧ combine a b = .error fault := by
  unfold onTwo at failed
  split at failed
  · rename_i a b
    refine ⟨a, b, rfl, ?_⟩
    cases combined : combine a b with
    | error cause => simpa [combined, Except.map] using failed
    | ok n => simp [combined, Except.map] at failed
  · simp at failed

theorem onTwo_pair {a b : Number} (failed : combine a b = .error fault) :
    onTwo combine [a, b] = .error fault := by
  simp [onTwo, failed, Except.map]

theorem onTwo_eq_none {operands : List Number} (several : operands.length ≠ 2) :
    onTwo combine operands = .ok none := by
  unfold onTwo
  split
  · simp at several
  · rfl

theorem foldLeft_eq_error_iff {total : Number} {operands : List Number} :
    foldLeft combine total operands = .error fault ↔
      ∃ before operand after reached, operands = before ++ operand :: after ∧
        foldLeft combine total before = .ok (some reached) ∧
          combine reached operand = .error fault := by
  induction operands generalizing total with
  | nil => simp [foldLeft]
  | cons first rest ih =>
      cases combined : combine total first with
      | error cause =>
          simp only [foldLeft, combined, Except.error.injEq]
          constructor
          · rintro rfl
            exact ⟨[], first, rest, total, rfl, rfl, combined⟩
          · rintro ⟨before, operand, after, reached, split, folded, failed⟩
            cases before with
            | nil =>
                obtain ⟨rfl, rfl⟩ := List.cons.inj split
                obtain rfl := Option.some.inj (Except.ok.inj folded)
                exact Except.error.inj (combined.symm.trans failed)
            | cons head others =>
                obtain ⟨rfl, rfl⟩ := List.cons.inj split
                simp [foldLeft, combined] at folded
      | ok next =>
          simp only [foldLeft, combined, ih]
          constructor
          · rintro ⟨before, operand, after, reached, rfl, folded, failed⟩
            exact ⟨first :: before, operand, after, reached, rfl,
              by simpa only [foldLeft, combined] using folded, failed⟩
          · rintro ⟨before, operand, after, reached, split, folded, failed⟩
            cases before with
            | nil =>
                obtain ⟨rfl, rfl⟩ := List.cons.inj split
                obtain rfl := Option.some.inj (Except.ok.inj folded)
                simp [combined] at failed
            | cons head others =>
                obtain ⟨rfl, rfl⟩ := List.cons.inj split
                exact ⟨others, operand, after, reached, rfl,
                  by simpa only [foldLeft, combined] using folded, failed⟩

end

theorem quotient_eq_error_iff (a b : Number) (fault : OverflowFault) :
    quotient a b = .error fault ↔ b.isZero = false ∧ a.div b = .error fault := by
  unfold quotient
  cases zero : b.isZero with
  | true => simp
  | false => cases a.div b <;> simp [Except.map]

theorem invert_ne_error (a : Number) (fault : OverflowFault) :
    quotient (.int 1) a ≠ .error fault := by
  intro failed
  obtain ⟨nonzero, failed⟩ := (quotient_eq_error_iff _ _ _).mp failed
  have limit : 1 < Double.integerLimit := Double.one_lt_integerLimit
  rcases (Number.div_eq_error_iff _ _ nonzero fault).mp failed with
    ⟨⟨differ, beyond⟩, _⟩ | ⟨m, n, one, rfl, beyond, _⟩
  · rcases beyond with one | other
    · exact absurd one (by simpa [Number.IsBeyond] using limit)
    · cases a with
      | int n => exact differ rfl
      | double d => exact other
  · obtain rfl := Number.int.inj one
    have positive : 0 < n.natAbs := by
      simpa [Number.isZero, Nat.pos_iff_ne_zero] using nonzero
    have room := Nat.mul_le_mul_left Double.integerLimit positive
    simp only [Int.natAbs_one] at beyond
    omega

theorem apply_one {operation : Operation} (unary : operation = negate ∨ operation = invert)
    {operands : List Number} (several : operands.length ≠ 1) :
    operation.apply operands = .ok none := by
  rcases unary with rfl | rfl
  · rcases operands with _ | ⟨a, _ | ⟨b, rest⟩⟩
    · rfl
    · exact absurd rfl several
    · rfl
  · rcases operands with _ | ⟨a, _ | ⟨b, rest⟩⟩
    · rfl
    · exact absurd rfl several
    · rfl

theorem apply_div {operands : List Number} (several : operands.length ≠ 2) :
    div.apply operands = .ok none := by
  rcases operands with _ | ⟨a, _ | ⟨b, _ | ⟨c, rest⟩⟩⟩
  · rfl
  · rfl
  · exact absurd rfl several
  · rfl

theorem quotient_of_zero {a b : Number} (zero : ¬b.isZero = false) :
    quotient a b = .ok none := by
  rw [quotient, if_pos (Bool.of_not_eq_false zero)]

theorem apply_eq_none {operation : Operation} {operands : List Number}
    (undefined : ¬operation.IsDefined operands) : operation.apply operands = .ok none := by
  cases operation with
  | add | sub | mul => exact onTwo_eq_none undefined
  | div =>
      by_cases two : operands.length = 2
      · obtain ⟨a, b, rfl⟩ := List.length_eq_two.mp two
        exact quotient_of_zero fun nonzero => undefined ⟨a, b, rfl, nonzero⟩
      · exact apply_div two
  | negate => exact apply_one (Or.inl rfl) undefined
  | invert =>
      by_cases one : operands.length = 1
      · obtain ⟨a, rfl⟩ := List.length_eq_one_iff.mp one
        exact quotient_of_zero fun nonzero => undefined ⟨a, rfl, nonzero⟩
      · exact apply_one (Or.inr rfl) one
  | sum | product => exact absurd trivial undefined

theorem foldLeft_ne_none {combine : Number → Number → Except OverflowFault Number} {total : Number}
    {operands : List Number} : foldLeft combine total operands ≠ .ok none := by
  induction operands generalizing total with
  | nil => simp [foldLeft]
  | cons first rest ih =>
      rw [foldLeft]
      cases combine total first with
      | error fault => simp
      | ok next => exact ih

theorem map_some_ne_none (attempt : Except OverflowFault Number) :
    attempt.map some ≠ .ok none := by
  cases attempt <;> simp [Except.map]

theorem apply_ne_none {operation : Operation} {operands : List Number}
    (defined : operation.IsDefined operands) : operation.apply operands ≠ .ok none := by
  cases operation with
  | add | sub | mul =>
      obtain ⟨a, b, rfl⟩ := List.length_eq_two.mp defined
      exact map_some_ne_none _
  | div =>
      obtain ⟨a, b, rfl, nonzero⟩ := defined
      rw [apply, quotient, nonzero]
      exact map_some_ne_none _
  | negate =>
      obtain ⟨a, rfl⟩ := List.length_eq_one_iff.mp defined
      simp [apply]
  | invert =>
      obtain ⟨a, rfl, nonzero⟩ := defined
      rw [apply, quotient, nonzero]
      exact map_some_ne_none _
  | sum | product => exact foldLeft_ne_none

theorem overflows_of_onTwo {operation : Operation} {exact : Int → Int → Int}
    {rounded : Double → Double → Double} (two : operation = add ∨ operation = sub ∨ operation = mul)
    {operands : List Number} {fault : OverflowFault}
    (failed : onTwo (Number.combine exact rounded) operands = .error fault) :
    operation.Overflows operands fault := by
  obtain ⟨a, b, rfl, stopped⟩ := onTwo_eq_error failed
  obtain ⟨clash, rfl⟩ := (Number.combine_eq_error_iff a b fault).mp stopped
  exact .mixed two clash

theorem overflows_of_apply {operation : Operation} {operands : List Number} {fault : OverflowFault}
    (failed : operation.apply operands = .error fault) : operation.Overflows operands fault := by
  cases operation with
  | add => exact overflows_of_onTwo (Or.inl rfl) failed
  | sub => exact overflows_of_onTwo (Or.inr (Or.inl rfl)) failed
  | mul => exact overflows_of_onTwo (Or.inr (Or.inr rfl)) failed
  | div =>
      by_cases two : operands.length = 2
      · obtain ⟨a, b, rfl⟩ := List.length_eq_two.mp two
        obtain ⟨nonzero, failed⟩ := (quotient_eq_error_iff a b fault).mp failed
        rcases (Number.div_eq_error_iff a b nonzero fault).mp failed with
          ⟨clash, rfl⟩ | ⟨m, n, rfl, rfl, beyond, rfl⟩
        · exact .mixedQuotient nonzero clash
        · exact .quotient (by simpa [Number.isZero] using nonzero) beyond
      · simp [apply_div two] at failed
  | negate =>
      by_cases one : operands.length = 1
      · obtain ⟨a, rfl⟩ := List.length_eq_one_iff.mp one
        simp [apply] at failed
      · simp [apply_one (Or.inl rfl) one] at failed
  | invert =>
      by_cases one : operands.length = 1
      · obtain ⟨a, rfl⟩ := List.length_eq_one_iff.mp one
        exact absurd failed (invert_ne_error a fault)
      · simp [apply_one (Or.inr rfl) one] at failed
  | sum =>
      obtain ⟨before, operand, after, total, rfl, folded, failed⟩ :=
        foldLeft_eq_error_iff.mp failed
      obtain ⟨clash, rfl⟩ := (Number.combine_eq_error_iff total operand fault).mp failed
      exact .mixedSum folded clash
  | product =>
      obtain ⟨before, operand, after, total, rfl, folded, failed⟩ :=
        foldLeft_eq_error_iff.mp failed
      obtain ⟨clash, rfl⟩ := (Number.combine_eq_error_iff total operand fault).mp failed
      exact .mixedProduct folded clash

theorem apply_of_overflows {operation : Operation} {operands : List Number} {fault : OverflowFault}
    (overflows : operation.Overflows operands fault) :
    operation.apply operands = .error fault ∨
      ∃ n, operation.apply operands = .ok (some n) ∧ n.isFinite = .error fault := by
  cases overflows with
  | mixed two clash =>
      left
      rcases two with rfl | rfl | rfl
      all_goals exact onTwo_pair ((Number.combine_eq_error_iff _ _ _).mpr ⟨clash, rfl⟩)
  | mixedQuotient nonzero clash =>
      exact Or.inl ((quotient_eq_error_iff _ _ _).mpr
        ⟨nonzero, (Number.div_eq_error_iff _ _ nonzero _).mpr (Or.inl ⟨clash, rfl⟩)⟩)
  | quotient nonzero beyond =>
      have notZero : (Number.int _).isZero = false := decide_eq_false nonzero
      exact Or.inl ((quotient_eq_error_iff _ _ _).mpr ⟨notZero,
        (Number.div_eq_error_iff _ _ notZero _).mpr (Or.inr ⟨_, _, rfl, rfl, beyond, rfl⟩)⟩)
  | mixedSum folded clash =>
      exact Or.inl (foldLeft_eq_error_iff.mpr ⟨_, _, _, _, rfl, folded,
        (Number.combine_eq_error_iff _ _ _).mpr ⟨clash, rfl⟩⟩)
  | mixedProduct folded clash =>
      exact Or.inl (foldLeft_eq_error_iff.mpr ⟨_, _, _, _, rfl, folded,
        (Number.combine_eq_error_iff _ _ _).mpr ⟨clash, rfl⟩⟩)
  | result applied beyond =>
      exact Or.inr ⟨_, applied, (Number.isFinite_eq_error_iff _ _).mpr ⟨beyond, rfl⟩⟩

end Operation

/-! Whole expressions. -/

namespace Expr

theorem finiteOnly_eq_error_iff (result : Option Number) (fault : OverflowFault) :
    finiteOnly result = .error fault ↔ ∃ n, result = some n ∧ n.isFinite = .error fault := by
  cases result with
  | none => simp [finiteOnly]
  | some n => cases finite : n.isFinite <;> simp [finiteOnly, finite]

theorem finiteOnly_eq_none_iff (n : Number) :
    finiteOnly (some n) = .ok none ↔ n.isFinite = .ok false := by
  rcases finite : n.isFinite with fault | _ | _ <;> simp [finiteOnly, finite]

theorem finiteOnly_eq_some {result : Option Number} {n : Number}
    (kept : finiteOnly result = .ok (some n)) : result = some n ∧ n.isFinite = .ok true := by
  cases result with
  | none => simp [finiteOnly] at kept
  | some m =>
      cases finite : m.isFinite with
      | error fault => simp [finiteOnly, finite] at kept
      | ok answer =>
          cases answer with
          | false => simp [finiteOnly, finite] at kept
          | true =>
              obtain rfl : m = n := by simpa [finiteOnly, finite] using kept
              exact ⟨rfl, finite⟩

/-- The evaluation comes to an operation that overflows. -/
inductive MeetsOverflow : Expr → OverflowFault → Prop
  | here {kind : Kind} {symbol : String} {children : List Expr} {operation : Operation}
      {operands : List Number} {fault : OverflowFault} :
      Operation.ofNode? kind symbol = some operation → valueEach children = .ok (some operands) →
        operation.Overflows operands fault → MeetsOverflow (node kind symbol children) fault
  | inside {kind : Kind} {symbol : String} {before after : List Expr} {child : Expr}
      {operation : Operation} {operands : List Number} {fault : OverflowFault} :
      Operation.ofNode? kind symbol = some operation → valueEach before = .ok (some operands) →
        MeetsOverflow child fault → MeetsOverflow (node kind symbol (before ++ child :: after)) fault

theorem valueEach_cons_of_ok {child : Expr} {first : Number} (valued : child.value = .ok (some first))
    (rest : List Expr) :
    valueEach (child :: rest) = (valueEach rest).map (Option.map (first :: ·)) := by
  rw [valueEach, valued]
  rcases valueEach rest with fault | none | others
  · rfl
  · rfl
  · rfl

theorem valueEach_append_error {before : List Expr} {operands : List Number}
    (each : valueEach before = .ok (some operands)) {child : Expr} {fault : OverflowFault}
    (failed : child.value = .error fault) (after : List Expr) :
    valueEach (before ++ child :: after) = .error fault := by
  induction before generalizing operands with
  | nil => rw [List.nil_append, valueEach, failed]
  | cons first others ih =>
      rcases valued : first.value with cause | none | n
      · simp [valueEach, valued] at each
      · simp [valueEach, valued] at each
      · rw [valueEach_cons_of_ok valued] at each
        rw [List.cons_append, valueEach_cons_of_ok valued]
        rcases later : valueEach others with cause | none | values
        · simp [later, Except.map] at each
        · simp [later, Except.map] at each
        · rw [ih later]
          rfl

theorem exists_of_valueEach_error {children : List Expr} {fault : OverflowFault}
    (failed : valueEach children = .error fault) :
    ∃ before child after operands, children = before ++ child :: after ∧
      valueEach before = .ok (some operands) ∧ child.value = .error fault := by
  induction children with
  | nil => simp [valueEach] at failed
  | cons first rest ih =>
      rcases valued : first.value with cause | none | n
      · rw [valueEach, valued] at failed
        obtain rfl := Except.error.inj failed
        exact ⟨[], first, rest, [], rfl, rfl, valued⟩
      · simp [valueEach, valued] at failed
      · rw [valueEach_cons_of_ok valued] at failed
        rcases later : valueEach rest with cause | none | others
        · rw [later] at failed
          obtain rfl : cause = fault := by simpa [Except.map] using failed
          obtain ⟨before, child, after, operands, rfl, each, below⟩ := ih later
          refine ⟨first :: before, child, after, n :: operands, rfl, ?_, below⟩
          rw [valueEach_cons_of_ok valued, each]
          rfl
        · simp [later, Except.map] at failed
        · simp [later, Except.map] at failed

theorem valueEach_eq_error_iff {children : List Expr} {fault : OverflowFault} :
    valueEach children = .error fault ↔
      ∃ before child after operands, children = before ++ child :: after ∧
        valueEach before = .ok (some operands) ∧ child.value = .error fault := by
  refine ⟨exists_of_valueEach_error, ?_⟩
  rintro ⟨before, child, after, operands, rfl, each, failed⟩
  exact valueEach_append_error each failed after

theorem value_operation {kind : Kind} {symbol : String} {children : List Expr}
    {operation : Operation} (known : Operation.ofNode? kind symbol = some operation) :
    (node kind symbol children).value =
      match valueEach children with
      | .error fault => .error fault
      | .ok none => .ok none
      | .ok (some operands) =>
          match operation.apply operands with
          | .error fault => .error fault
          | .ok result => finiteOnly result := by
  have notConst : kind ≠ .const := by
    rintro rfl
    simp [Operation.ofNode?] at known
  rewrite [value, known]
  · rfl
  · exact notConst

theorem exists_operation_of_value_error {kind : Kind} {symbol : String} {children : List Expr}
    {fault : OverflowFault} (failed : (node kind symbol children).value = .error fault) :
    ∃ operation, Operation.ofNode? kind symbol = some operation := by
  by_cases isConst : kind = .const
  · subst isConst
    simp [value] at failed
  · rw [value] at failed
    · cases known : Operation.ofNode? kind symbol with
      | none => simp [known] at failed
      | some operation => exact ⟨operation, rfl⟩
    · exact isConst

theorem meetsOverflow_of_value {e : Expr} {fault : OverflowFault} (failed : e.value = .error fault) :
    e.MeetsOverflow fault := by
  induction e using Expr.induction with
  | node kind symbol children each =>
      obtain ⟨operation, known⟩ := exists_operation_of_value_error failed
      rw [value_operation known] at failed
      split at failed
      · rename_i cause inside
        obtain rfl := Except.error.inj failed
        obtain ⟨before, child, after, operands, rfl, valued, below⟩ :=
          valueEach_eq_error_iff.mp inside
        exact .inside known valued (each child (by simp) below)
      · simp at failed
      · rename_i operands valued
        refine .here known valued ?_
        split at failed
        · rename_i cause applied
          obtain rfl := Except.error.inj failed
          exact Operation.overflows_of_apply applied
        · rename_i result applied
          obtain ⟨n, rfl, infinite⟩ := (finiteOnly_eq_error_iff _ _).mp failed
          obtain ⟨beyond, rfl⟩ := (Number.isFinite_eq_error_iff n fault).mp infinite
          exact .result applied beyond

theorem value_of_meetsOverflow {e : Expr} {fault : OverflowFault} (meets : e.MeetsOverflow fault) :
    e.value = .error fault := by
  induction meets with
  | here known valued overflows =>
      rw [value_operation known, valued]
      rcases Operation.apply_of_overflows overflows with failed | ⟨n, applied, infinite⟩
      · simp only [failed]
      · simp only [applied]
        exact (finiteOnly_eq_error_iff _ _).mpr ⟨n, rfl, infinite⟩
  | inside known valued below ih =>
      rw [value_operation known, valueEach_eq_error_iff.mpr ⟨_, _, _, _, rfl, valued, ih⟩]

theorem isFinite_of_value {kind : Kind} {symbol : String} {children : List Expr}
    {operation : Operation} (known : Operation.ofNode? kind symbol = some operation) {n : Number}
    (valued : (node kind symbol children).value = .ok (some n)) : n.isFinite = .ok true := by
  rw [value_operation known] at valued
  split at valued
  · simp at valued
  · simp at valued
  · split at valued
    · simp at valued
    · exact (finiteOnly_eq_some valued).2

theorem value_eq_none_iff {kind : Kind} {symbol : String} {children : List Expr}
    {operation : Operation} {operands : List Number}
    (known : Operation.ofNode? kind symbol = some operation)
    (each : valueEach children = .ok (some operands)) :
    (node kind symbol children).value = .ok none ↔
      ¬operation.IsDefined operands ∨
        ∃ d, operation.apply operands = .ok (some (.double d)) ∧ d.isFinite = false := by
  rw [value_operation known, each]
  by_cases defined : operation.IsDefined operands
  · dsimp only
    rcases applied : operation.apply operands with fault | none | n
    · simp [defined]
    · exact absurd applied (Operation.apply_ne_none defined)
    · dsimp only
      rw [finiteOnly_eq_none_iff]
      cases n with
      | int n => simp [Number.isFinite_int_ne_false, defined]
      | double d => simp [Number.isFinite_double, defined]
  · simp [Operation.apply_eq_none defined, finiteOnly, defined]

theorem isCalculable_eq_error_iff (e : Expr) (fault : OverflowFault) :
    e.isCalculable = .error fault ↔
      e.isLeaf = false ∧ e.isNegativeNumeral = false ∧ e.value = .error fault := by
  unfold isCalculable
  cases e.isLeaf with
  | true => simp
  | false =>
      cases e.isNegativeNumeral with
      | true => simp
      | false => cases e.value <;> simp [Except.map]

/-- Evaluation returns unless it comes to an operation that overflows. What it then returns for an
operation is in the range, and it is missing where the operation is undefined or its rounded result
is infinite. -/
theorem evaluation_breaks_off (e : Expr) :
    (∀ fault, e.value = .error fault ↔ e.MeetsOverflow fault) ∧
    (∀ fault, e.isCalculable = .error fault ↔
      e.isLeaf = false ∧ e.isNegativeNumeral = false ∧ e.MeetsOverflow fault) ∧
    ∀ operation, e.operation? = some operation →
      (∀ n, e.value = .ok (some n) → n.isFinite = .ok true) ∧
      ∀ operands, valueEach e.children = .ok (some operands) →
        (e.value = .ok none ↔ ¬operation.IsDefined operands ∨
          ∃ d, operation.apply operands = .ok (some (.double d)) ∧ d.isFinite = false) := by
  have breaks (fault : OverflowFault) : e.value = .error fault ↔ e.MeetsOverflow fault :=
    ⟨meetsOverflow_of_value, value_of_meetsOverflow⟩
  refine ⟨breaks, fun fault => ?_, fun operation known => ?_⟩
  · rw [isCalculable_eq_error_iff, breaks]
  · obtain ⟨kind, symbol, children⟩ := e
    exact ⟨fun n valued => isFinite_of_value known valued,
      fun operands each => value_eq_none_iff known each⟩

/-- One divided by zero. -/
theorem evaluation_of_one_over_zero :
    ((binary "/" (const "1") (const "0")).operation? = some .div ∧
      valueEach [const "1", const "0"] = .ok (some [.int 1, .int 0]) ∧
      ¬Operation.div.IsDefined [.int 1, .int 0]) ∧
    (binary "/" (const "1") (const "0")).value = .ok none := by
  have known : (binary "/" (const "1") (const "0")).operation? = some .div := rfl
  have each : valueEach [const "1", const "0"] = .ok (some [.int 1, .int 0]) := by decide +kernel
  have undefined : ¬Operation.div.IsDefined [.int 1, .int 0] := by
    rintro ⟨a, b, same, nonzero⟩
    obtain ⟨-, rfl⟩ : Number.int 1 = a ∧ Number.int 0 = b := by simpa using same
    simp [Number.isZero] at nonzero
  exact ⟨⟨known, each, undefined⟩,
    (((evaluation_breaks_off _).2.2 _ known).2 _ each).mpr (Or.inl undefined)⟩

/-- A product of integers that is beyond the range. -/
theorem evaluation_of_large_product :
    (train "*" (List.replicate 16 (const "100000000000000000000"))).value =
      .error .integerTooLarge ∧
    (train "*" (List.replicate 16 (const "100000000000000000000"))).isCalculable =
      .error .integerTooLarge := by
  decide +kernel

end Expr

end Stepwise
