import Stepwise.Expr.Position
import Stepwise.Matching.Basic

/-!
Instances of expressions. Bound variables are replaced by what they are bound to. A variadic train
is expanded first when an arity is bound; the bound names are shared by its copies. Variables that
are not bound stay.
-/

namespace Stepwise.Expr

def expand (e : Expr) (count : Int) (shared : List String) : Attempt Expr :=
  match e.template? with
  | none => Attempt.stepFault (.notVariadic e)
  | some template =>
      if count < 1 then .error (.arity count)
      else .ok (train e.symbol (copies shared template count.toNat))

def templateCopy (e : Expr) (index : Int) (shared : List String) : Attempt Expr :=
  match e.children with
  | node _ _ (template :: _) :: _ => .ok (copy shared index template)
  | _ => .error .outOfRange

mutual

def instantiateRenamed (bindings : Bindings) (names : String → String) : Expr → Attempt Expr
  | node .var symbol children =>
      .ok ((bindings.find? (names symbol)).getD (node .var (names symbol) children))
  | node .train symbol [node .variadic mark [template]] => do
      match ← bindings.arity with
      | none =>
          let inner ← instantiateRenamed bindings names template
          let marker ← build .variadic mark [inner]
          build .train symbol [marker]
      | some count =>
          if count < 1 then .error (.arity count)
          else
            let terms ← (List.range count.toNat).mapM fun index =>
              instantiateRenamed bindings
                (fun name => copyName bindings.keys (index + 1 : Nat) (names name)) template
            build .train symbol terms
  | node kind symbol children => do
      let instances ← instantiateEach bindings names children
      build kind symbol instances

def instantiateEach (bindings : Bindings) (names : String → String) :
    List Expr → Attempt (List Expr)
  | [] => .ok []
  | child :: rest => do
      let first ← instantiateRenamed bindings names child
      let others ← instantiateEach bindings names rest
      return first :: others

end

def instantiate (bindings : Bindings) (e : Expr) : Attempt Expr :=
  e.instantiateRenamed bindings id

/-- Whether `other`, as a pattern, matches `e` and its instance is `e` again. -/
def isInstanceOf (e other : Expr) : Attempt Bool :=
  match e.bindings? other with
  | none => .ok false
  | some bindings => do
      let image ← other.instantiate bindings
      return image = e

end Stepwise.Expr
