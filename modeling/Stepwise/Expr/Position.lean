import Stepwise.Collections
import Stepwise.Fault

/-!
Reading and replacing at an address. An address with a pair reads the binary node of two
neighbouring terms of a train, and replacing there puts one term in the place of the two.
-/

namespace Stepwise.Expr

def build (kind : Kind) (symbol : String) (children : List Expr) : Attempt Expr :=
  match shapeFault? kind children with
  | some cause => .error (.shape cause)
  | none => .ok (node kind symbol children)

def withKind (kind : Kind) (e : Expr) : Attempt Expr := build kind e.symbol e.children

def withChildren (e : Expr) (children : List Expr) : Attempt Expr := build e.kind e.symbol children

def childAt? (e : Expr) (index : Int) : Option Expr := Index.forward? e.children index

def nodeAtFrom (root : Expr) (depth : Nat) (e : Expr) : List Int → Attempt Expr
  | [] => .ok e
  | index :: path =>
      match e.childAt? index with
      | some child => nodeAtFrom root (depth + 1) child path
      | none => Attempt.stepFault (.noChildAtDepth index depth root)

def nodeAt (e : Expr) (path : List Int) : Attempt Expr := nodeAtFrom e 0 e path

def pairAt (e : Expr) (index : Int) : Attempt Expr :=
  if e.isTrain then
    if index < 0 ∨ e.children.length ≤ index + 1 then Attempt.stepFault (.noPair index)
    else build .binary e.symbol ((e.children.drop index.toNat).take 2)
  else Attempt.stepFault (.notATrain e)

def replacePair (e new : Expr) (index : Int) : Attempt Expr :=
  if e.isTrain then
    if index < 0 ∨ e.children.length ≤ index + 1 then Attempt.stepFault (.noPair index)
    else e.withChildren (e.children.take index.toNat ++ new :: e.children.drop (index.toNat + 2))
  else Attempt.stepFault (.notATrain e)

def resolve (e : Expr) (address : Address) : Attempt Expr := do
  let target ← e.nodeAt address.path
  match address.pair with
  | none => return target
  | some index => target.pairAt index

def replaceFrom (new : Expr) (pair : Option Int) (e : Expr) : List Int → Attempt Expr
  | [] =>
      match pair with
      | none => .ok new
      | some index => e.replacePair new index
  | index :: path =>
      match e.childAt? index with
      | none => Attempt.stepFault (.noChild index e)
      | some child => do
          let replaced ← replaceFrom new pair child path
          e.withChildren (e.children.set index.toNat replaced)

def replace (e new : Expr) (address : Address) : Attempt Expr :=
  replaceFrom new address.pair e address.path

mutual

def walkFrom (address : Address) : Expr → List (Address × Expr)
  | node kind symbol children =>
      (address, node kind symbol children) :: walkEach address 0 children

def walkEach (address : Address) (index : Nat) : List Expr → List (Address × Expr)
  | [] => []
  | child :: rest => walkFrom (address.child index) child ++ walkEach address (index + 1) rest

end

/-- Every node with its address, in preorder. Where the start has an empty path the walk starts
at the root. -/
def walk (e : Expr) (start : Address) : List (Address × Expr) :=
  e.walkFrom (if start.path.isEmpty then .root else start)

end Stepwise.Expr
