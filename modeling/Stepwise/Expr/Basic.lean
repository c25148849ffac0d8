/-!
Expression trees: a node has a kind, a symbol and a list of children. Leaves are constants and
variables; inner nodes are applied operators, statements, trains of an associative operator, and
the variadic marker that stands for one or more copies of its template inside a train.
-/

namespace Stepwise

inductive Kind
  | const
  | var
  | unary
  | binary
  | call
  | statement
  | train
  | variadic
  deriving DecidableEq

def Kind.name : Kind → String
  | .const => "ValueConst"
  | .var => "ValueVar"
  | .unary => "OperatorUnary"
  | .binary => "OperatorBinary"
  | .call => "OperatorNary"
  | .statement => "StatementOperatorBinary"
  | .train => "AssocTrain"
  | .variadic => "Variadic"

def Kind.isLeaf (kind : Kind) : Bool :=
  kind = .const ∨ kind = .var

inductive Expr
  | node (kind : Kind) (symbol : String) (children : List Expr)

namespace Expr

def kind : Expr → Kind
  | node kind _ _ => kind

def symbol : Expr → String
  | node _ symbol _ => symbol

def children : Expr → List Expr
  | node _ _ children => children

@[simp] theorem kind_node (k : Kind) (s : String) (cs : List Expr) : (node k s cs).kind = k := rfl

@[simp] theorem symbol_node (k : Kind) (s : String) (cs : List Expr) :
    (node k s cs).symbol = s := rfl

@[simp] theorem children_node (k : Kind) (s : String) (cs : List Expr) :
    (node k s cs).children = cs := rfl

theorem induction {P : Expr → Prop}
    (node : ∀ kind symbol children, (∀ child ∈ children, P child) → P (node kind symbol children))
    (e : Expr) : P e :=
  Expr.rec (motive_1 := P) (motive_2 := fun children => ∀ child ∈ children, P child)
    (fun kind symbol children each => node kind symbol children each)
    (fun _ member => nomatch member)
    (fun _ _ first rest child member => by
      rcases List.mem_cons.mp member with eq | inRest
      · exact eq ▸ first
      · exact rest child inRest)
    e

mutual

def decideEq : (a b : Expr) → Decidable (a = b)
  | node k s cs, node l t ds =>
      if sameKind : k = l then
        if sameSymbol : s = t then
          match decideEqList cs ds with
          | .isTrue sameChildren => .isTrue (by rw [sameKind, sameSymbol, sameChildren])
          | .isFalse differ => .isFalse (fun eq => differ (by injection eq))
        else .isFalse (fun eq => sameSymbol (by injection eq))
      else .isFalse (fun eq => sameKind (by injection eq))

def decideEqList : (as bs : List Expr) → Decidable (as = bs)
  | [], [] => .isTrue rfl
  | [], _ :: _ => .isFalse (fun eq => nomatch eq)
  | _ :: _, [] => .isFalse (fun eq => nomatch eq)
  | a :: as, b :: bs =>
      match decideEq a b with
      | .isTrue first =>
          match decideEqList as bs with
          | .isTrue rest => .isTrue (by rw [first, rest])
          | .isFalse differ => .isFalse (fun eq => differ (by injection eq))
      | .isFalse differ => .isFalse (fun eq => differ (by injection eq))

end

instance : DecidableEq Expr := decideEq

def const (symbol : String) : Expr := node .const symbol []

def var (symbol : String) : Expr := node .var symbol []

def unary (symbol : String) (operand : Expr) : Expr := node .unary symbol [operand]

def binary (symbol : String) (left right : Expr) : Expr := node .binary symbol [left, right]

def call (symbol : String) (arguments : List Expr) : Expr := node .call symbol arguments

def train (symbol : String) (terms : List Expr) : Expr := node .train symbol terms

def equation (lhs rhs : Expr) : Expr := node .statement "=" [lhs, rhs]

def implication (premise conclusion : Expr) : Expr := node .statement "=>" [premise, conclusion]

/-- The symbol of the variadic marker, and the name under which a match records the arity. -/
def ellipsis : String := "..."

def variadicTrain (symbol : String) (template : Expr) : Expr :=
  train symbol [node .variadic ellipsis [template]]

def isLeaf (e : Expr) : Bool := e.kind.isLeaf

def isConst (e : Expr) : Bool := e.kind = .const

def isVar (e : Expr) : Bool := e.kind = .var

def isMarker (e : Expr) : Bool := e.kind = .variadic

def isStatement (e : Expr) : Bool := e.kind = .statement

def isTrain (e : Expr) : Bool := e.kind = .train

def isEquation (e : Expr) : Bool := e.isStatement && e.symbol = "="

def isImplication (e : Expr) : Bool := e.isStatement && e.symbol = "=>"

def template? : Expr → Option Expr
  | node .train _ [node .variadic _ [template]] => some template
  | _ => none

def isVariadicTrain (e : Expr) : Bool := e.template?.isSome

/-- A binary node or a train of `symbol` that is not variadic. -/
def isGroupOf (symbol : String) (e : Expr) : Bool :=
  (e.kind = .binary || e.kind = .train) && e.symbol = symbol && !e.isVariadicTrain

def equationSides? : Expr → Option (Expr × Expr)
  | node .statement "=" [lhs, rhs] => some (lhs, rhs)
  | _ => none

def implicationSides? : Expr → Option (Expr × Expr)
  | node .statement "=>" [premise, conclusion] => some (premise, conclusion)
  | _ => none

end Expr

end Stepwise
