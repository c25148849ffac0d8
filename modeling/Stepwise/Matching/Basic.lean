import Stepwise.Collections
import Stepwise.Expr.Position
import Stepwise.Expr.Variables
import Stepwise.Fault

/-!
One-sided matching. The variables of a pattern are bound to the parts of the subject that stand in
their places; a variable that occurs twice must meet equal parts, and everything else must agree
exactly. A variadic train matches every train of its operator: it is first expanded to as many
copies as the subject has terms, and that number is bound to the ellipsis.
Where a pattern is looked for in all places, each node is tried first, then, if it is a train, its
pairs of neighbouring terms, then its children from left to right.
-/

namespace Stepwise

abbrev Bindings := Table Expr

namespace Bindings

def extend? (name : String) (value : Expr) (bindings : Bindings) : Option Bindings :=
  match bindings.find? name with
  | some bound => if bound = value then some bindings else none
  | none => some (bindings ++ [(name, value)])

def arity (bindings : Bindings) : Attempt (Option Int) :=
  match bindings.find? Expr.ellipsis with
  | none => .ok none
  | some bound =>
      match Literal.readInt bound.symbol with
      | .ok count => .ok (some count)
      | .error cause => .error (.literal cause)

def debugText : Option Bindings → String
  | none => "NoMatch"
  | some bindings =>
      "MatchMap(\x7b" ++
        Text.joined ", " (bindings.map fun pair => pair.1 ++ ": " ++ pair.2.display) ++ "\x7d)"

end Bindings

namespace Expr

mutual

/-- Extends the bindings so that the pattern becomes the subject. The shared variables keep their
names in the copies of a template. -/
def matchNode (shared : List String) (pattern : Expr) (bindings : Bindings) :
    (subject : Expr) → Option Bindings
  | node kind symbol children =>
      match pattern with
      | node .var name _ => bindings.extend? name (node kind symbol children)
      | node .const name _ => if kind = .const ∧ symbol = name then some bindings else none
      | node .train name [node .variadic _ [template]] =>
          if kind = .train ∧ symbol = name then
            match bindings.extend? ellipsis (const (toString children.length)) with
            | none => none
            | some counted =>
                matchEach shared (copies shared template children.length) counted children
          else none
      | node patternKind name patterns =>
          if patternKind = kind ∧ name = symbol ∧ patterns.length = children.length then
            matchEach shared patterns bindings children
          else none

def matchEach (shared : List String) (patterns : List Expr) (bindings : Bindings) :
    (subjects : List Expr) → Option Bindings
  | [] => some bindings
  | subject :: rest =>
      match patterns with
      | [] => some bindings
      | pattern :: others =>
          match matchNode shared pattern bindings subject with
          | none => none
          | some extended => matchEach shared others extended rest

end

def bindings? (subject pattern : Expr) : Option Bindings :=
  matchNode pattern.fixedVariables pattern [] subject

def matchHere (subject pattern : Expr) : Attempt Bindings :=
  match subject.bindings? pattern with
  | some bindings => .ok bindings
  | none => Attempt.stepFault (.noMatch pattern subject)

end Expr

end Stepwise

namespace Stepwise.Expr

def matchAt (e pattern : Expr) (address : Address) : Attempt Bindings := do
  let target ← e.resolve address
  target.matchHere pattern

def found (pattern candidate : Expr) (address : Address) : List (Address × Bindings) :=
  match candidate.bindings? pattern with
  | some bindings => [(address, bindings)]
  | none => []

def pairMatches (pattern : Expr) (symbol : String) (address : Address) (index : Nat) :
    List Expr → List (Address × Bindings)
  | left :: right :: rest =>
      found pattern (binary symbol left right) (address.withPair (some index)) ++
        pairMatches pattern symbol address (index + 1) (right :: rest)
  | _ => []

mutual

def matchesFrom (pattern : Expr) (address : Address) : Expr → List (Address × Bindings)
  | node kind symbol children =>
      found pattern (node kind symbol children) address ++
        (if kind = .train then pairMatches pattern symbol address 0 children else []) ++
        matchesEach pattern address 0 children

def matchesEach (pattern : Expr) (address : Address) (index : Nat) :
    List Expr → List (Address × Bindings)
  | [] => []
  | child :: rest =>
      matchesFrom pattern (address.child index) child ++
        matchesEach pattern address (index + 1) rest

end

def patternMatches (e pattern : Expr) : List (Address × Bindings) :=
  matchesFrom pattern .root e

end Stepwise.Expr
