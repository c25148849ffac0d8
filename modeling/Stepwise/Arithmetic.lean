import Stepwise.Expr.Basic
import Stepwise.Number.Basic

/-!
The arithmetic operations, told apart by symbol and kind of node, what they do to numbers, and the
values of expressions that are built from numerals and them only. A division by zero and a wrong
number of operands have no value.
-/

namespace Stepwise

inductive Operation
  | add
  | sub
  | mul
  | div
  | negate
  | invert
  | sum
  | product
  deriving DecidableEq

namespace Operation

def name : Operation → String
  | add => "Add"
  | sub => "Sub"
  | mul => "Mul"
  | div => "Div"
  | negate => "Negative"
  | invert => "Reciprocal"
  | sum => "AddTrain"
  | product => "MulTrain"

def all : List Operation := [add, sub, mul, div, negate, invert, sum, product]

def ofName? (name : String) : Option Operation := all.find? fun op => op.name = name

def ofNode? (kind : Kind) (symbol : String) : Option Operation :=
  match kind, symbol with
  | .binary, "+" => some add
  | .binary, "-" => some sub
  | .binary, "*" => some mul
  | .binary, "/" => some div
  | .unary, "-" => some negate
  | .unary, "/" => some invert
  | .train, "+" => some sum
  | .train, "*" => some product
  | _, _ => none

abbrev Value := Except OverflowFault (Option Number)

def foldLeft (combine : Number → Number → Except OverflowFault Number) (total : Number) :
    List Number → Value
  | [] => .ok (some total)
  | operand :: rest =>
      match combine total operand with
      | .ok next => foldLeft combine next rest
      | .error fault => .error fault

def onTwo (combine : Number → Number → Except OverflowFault Number) : List Number → Value
  | [a, b] => (combine a b).map some
  | _ => .ok none

def quotient (a b : Number) : Value :=
  if b.isZero then .ok none else (a.div b).map some

def apply : Operation → List Number → Value
  | add, operands => onTwo Number.add operands
  | sub, operands => onTwo Number.sub operands
  | mul, operands => onTwo Number.mul operands
  | div, [a, b] => quotient a b
  | negate, [a] => .ok (some a.neg)
  | invert, [a] => quotient (.int 1) a
  | sum, operands => foldLeft Number.add (.int 0) operands
  | product, operands => foldLeft Number.mul (.int 1) operands
  | _, _ => .ok none

end Operation

end Stepwise

namespace Stepwise.Expr

def operation? (e : Expr) : Option Operation := Operation.ofNode? e.kind e.symbol

def numeral? (e : Expr) : Option Number :=
  if e.isConst then Number.read e.symbol else none

def isNumeral (e : Expr) : Bool := e.numeral?.isSome

def isInteger (n : Int) (e : Expr) : Bool :=
  match e.numeral? with
  | some value => value.equalsInt n
  | none => false

def isNegativeNumeral (e : Expr) : Bool :=
  e.operation? = some .negate && (e.children.head?.any isNumeral)

def finiteOnly : Option Number → Operation.Value
  | none => .ok none
  | some value =>
      match value.isFinite with
      | .ok finite => .ok (if finite then some value else none)
      | .error fault => .error fault

mutual

def value : Expr → Operation.Value
  | node .const symbol _ => .ok (Number.read symbol)
  | node kind symbol children =>
      match Operation.ofNode? kind symbol with
      | none => .ok none
      | some operation =>
          match valueEach children with
          | .error fault => .error fault
          | .ok none => .ok none
          | .ok (some operands) =>
              match operation.apply operands with
              | .error fault => .error fault
              | .ok result => finiteOnly result

def valueEach : List Expr → Except OverflowFault (Option (List Number))
  | [] => .ok (some [])
  | child :: rest =>
      match value child with
      | .error fault => .error fault
      | .ok none => .ok none
      | .ok (some first) =>
          match valueEach rest with
          | .error fault => .error fault
          | .ok none => .ok none
          | .ok (some others) => .ok (some (first :: others))

end

/-- Whether the expression is an operation with a value, other than a negative numeral. -/
def isCalculable (e : Expr) : Except OverflowFault Bool :=
  if e.isLeaf || e.isNegativeNumeral then .ok false else e.value.map Option.isSome

/-- The numeral of a number; a negative one stands under a minus. -/
def ofNumber (n : Number) : Expr :=
  if n.isNegative then unary "-" (const n.neg.text) else const n.text

end Stepwise.Expr
