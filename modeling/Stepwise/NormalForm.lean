import Stepwise.Arithmetic
import Stepwise.Context
import Stepwise.Expr.Basic

/-!
Passes that replace every node once, the children before their parent, and the normal form that they
make. Subtractions become additions of negatives, so that sums flatten into trains; terms `+ 0` and
factors `* 1` are dropped, and a product with a factor 0 becomes 0; trains of two terms become
binary nodes, and trains of one term become that term; and a sum of two terms of which the second is
negative is written as a subtraction again. Variadic trains stay as they are.
-/

namespace Stepwise.Expr

mutual

def bottomUp (step : Expr → Expr) : Expr → Expr
  | node kind symbol children => step (node kind symbol (bottomUpEach step children))

def bottomUpEach (step : Expr → Expr) : List Expr → List Expr
  | [] => []
  | child :: rest => bottomUp step child :: bottomUpEach step rest

end

theorem bottomUpEach_eq_map (step : Expr → Expr) (es : List Expr) :
    bottomUpEach step es = es.map (bottomUp step) := by
  induction es with
  | nil => rfl
  | cons e es ih => simp [bottomUpEach, ih]

theorem bottomUp_node (step : Expr → Expr) (kind : Kind) (symbol : String) (children : List Expr) :
    bottomUp step (node kind symbol children) =
      step (node kind symbol (children.map (bottomUp step))) := by
  rw [bottomUp, bottomUpEach_eq_map]

def terms (symbol : String) (child : Expr) : List Expr :=
  if child.isGroupOf symbol then child.children else [child]

def flattenNode (ops : List String) (e : Expr) : Expr :=
  if e.symbol ∈ ops && e.isGroupOf e.symbol && e.children.any (isGroupOf e.symbol) then
    train e.symbol (e.children.flatMap (terms e.symbol))
  else e

/-- Flattens the groups of the given operators. A binary node that absorbs nothing stays one. -/
def flatten (ops : List String) : Expr → Expr := bottomUp (flattenNode ops)

def shortenNode (ops : List String) : Expr → Expr
  | node .train symbol [left, right] =>
      if symbol ∈ ops then binary symbol left right else train symbol [left, right]
  | e => e

def shorten (ops : List String) : Expr → Expr := bottomUp (shortenNode ops)

def unwrapNode (e : Expr) : Expr :=
  match e with
  | node .train _ [term] => if e.isVariadicTrain then e else term
  | _ => e

def unwrap : Expr → Expr := bottomUp unwrapNode

structure SubtractionSymbols where
  sub : String
  add : String
  negative : String

def SubtractionSymbols.usual : SubtractionSymbols := ⟨"-", "+", "-"⟩

def subToNegativeNode (symbols : SubtractionSymbols) : Expr → Expr
  | node .binary symbol [left, right] =>
      if symbol = symbols.sub then binary symbols.add left (unary symbols.negative right)
      else binary symbol left right
  | e => e

def subToNegative (symbols : SubtractionSymbols) : Expr → Expr :=
  bottomUp (subToNegativeNode symbols)

def negativeToSubNode (symbols : SubtractionSymbols) : Expr → Expr
  | node .binary symbol [left, node .unary mark [operand]] =>
      if symbol = symbols.add ∧ mark = symbols.negative then binary symbols.sub left operand
      else binary symbol left (unary mark operand)
  | e => e

/-- Writes every binary addition of a negative as a subtraction; trains are left alone. -/
def negativeToSub (symbols : SubtractionSymbols) : Expr → Expr :=
  bottomUp (negativeToSubNode symbols)

def neutral? (symbol : String) : Option Int :=
  if symbol = "+" then some 0 else if symbol = "*" then some 1 else none

def ofKept (symbol : String) (neutral : Int) : List Expr → Expr
  | [] => const (toString neutral)
  | [only] => only
  | kept => train symbol kept

def simplifyNode (e : Expr) : Expr :=
  if (e.kind = .binary || e.kind = .train) && !e.isVariadicTrain then
    if e.symbol = "*" && e.children.any (isInteger 0) then const "0"
    else
      match neutral? e.symbol with
      | none => e
      | some neutral =>
          let kept := e.children.filter fun child => !child.isInteger neutral
          if kept.length = e.children.length then e else ofKept e.symbol neutral kept
  else e

def simplify : Expr → Expr := bottomUp simplifyNode

def simplifyFlag : String := "simplify one and zero"

def regroup (ctx : Context) (e : Expr) : Expr :=
  let simplified := if simplifyFlag ∈ ctx.flags then e.simplify else e
  ((simplified.flatten ctx.assocOps).shorten ctx.binaryOps).unwrap

/-- The normal form; subtraction takes part when it is a binary operator of the context. -/
def normalize (ctx : Context) (e : Expr) : Expr :=
  if "-" ∈ ctx.binaryOps then
    negativeToSub .usual (regroup ctx (subToNegative .usual e))
  else regroup ctx e

end Stepwise.Expr
