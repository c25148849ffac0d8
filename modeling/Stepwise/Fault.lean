import Stepwise.Address
import Stepwise.Expr.Display
import Stepwise.Expr.Shape
import Stepwise.Json.Basic
import Stepwise.Number.Basic

/-!
Everything that can fail, by cause, and the message of each cause. The failures of a deduction
step form a type of their own: a search for steps passes over them and over nothing else.
-/

namespace Stepwise

inductive StepFault
  | rootHasNoParent
  | noChildAtDepth (index : Int) (depth : Nat) (root : Expr)
  | noChild (index : Int) (parent : Expr)
  | noPair (index : Int)
  | noSwap (i j : Int) (count : Nat)
  | noFactor
  | awayFromRoot (ruleId : String)
  | notAnEquation (e : Expr)
  | notAFunction (e : Expr)
  | notAnImplication (e : Expr)
  | notATrain (e : Expr)
  | noMatch (pattern subject : Expr)
  | notNumeric (e : Expr)
  | notAFraction (e : Expr)
  | notNumericFactors (top bottom : Expr)
  | zeroOverZero
  | divisionByZero
  | containsVariable (e : Expr)
  | lhsMismatch (expected got : Expr)
  | premiseMismatch (expected got : Expr)
  | notARule (id : String) (e : Expr)
  | notVariadic (e : Expr)
  deriving DecidableEq

namespace StepFault

def name : StepFault → String
  | rootHasNoParent | noChildAtDepth .. | noChild .. | noPair _ | noSwap .. | noFactor
  | awayFromRoot _ => "InvalidAddress"
  | notAnEquation _ | notAFunction _ => "NotAnEquation"
  | notAnImplication _ => "NotAnImplication"
  | notATrain _ => "NotAnAssocTrain"
  | noMatch .. | notNumeric _ | notAFraction _ | notNumericFactors .. | zeroOverZero
  | divisionByZero => "PatternDoesNotMatch"
  | containsVariable _ => "ExpressionContainsVariable"
  | lhsMismatch .. => "EquationLHSMismatch"
  | premiseMismatch .. => "ImplicationLHSMismatch"
  | notARule .. => "InvalidRule"
  | notVariadic _ => "NotAParentOfVariadic"

def message : StepFault → String
  | rootHasNoParent => "the root has no parent"
  | noChildAtDepth index depth root =>
      "no child " ++ toString index ++ " at depth " ++ toString depth ++ " of " ++ root.display
  | noChild index parent => "no child " ++ toString index ++ " in " ++ parent.display
  | noPair index => "train has no pair at " ++ toString index
  | noSwap i j count =>
      "cannot swap " ++ toString i ++ " and " ++ toString j ++ " in a train of " ++ toString count
  | noFactor => "fraction factor index out of range"
  | awayFromRoot ruleId => "implication " ++ Text.quoted ruleId ++ " only applies at the root"
  | notAnEquation e => e.display ++ " is not an equation"
  | notAFunction e => e.display ++ " does not define a one-argument function"
  | notAnImplication e => e.display ++ " is not an implication"
  | notATrain e => e.display ++ " is not an associative train"
  | noMatch pattern subject => pattern.display ++ " does not match " ++ subject.display
  | notNumeric e => e.display ++ " is not a numeric operation"
  | notAFraction e => e.display ++ " is not a fraction"
  | notNumericFactors top bottom => top.display ++ " / " ++ bottom.display ++ " is not numeric"
  | zeroOverZero => "0 / 0 cannot be simplified"
  | divisionByZero => "division by zero"
  | containsVariable e => e.display ++ " contains a variable"
  | lhsMismatch expected got => "expected " ++ expected.display ++ ", got " ++ got.display
  | premiseMismatch expected got => "expected " ++ expected.display ++ ", got " ++ got.display
  | notARule id e =>
      "rule " ++ Text.quoted id ++ " is neither an equation nor an implication: " ++ e.display
  | notVariadic e => e.display ++ " is not a variadic train"

end StepFault

inductive ParseFault
  | markerArity
  | markerUnder (symbol : String)
  | markerNotAlone (symbol : String)
  | unbalanced
  | empty
  | invalidSymbol (text : String)
  | invalidOperator (text : String)
  | trailingText (text : String)
  | unexpectedEnd
  | expected (token found : String)
  | unexpectedToken (token : String)
  | notAssociative (symbol : String)
  deriving DecidableEq

def ParseFault.message : ParseFault → String
  | markerArity => "the variadic marker takes exactly one template"
  | markerUnder symbol => "variadic marker under non-associative operator " ++ Text.quoted symbol
  | markerNotAlone symbol => "variadic marker must be the only argument of " ++ Text.quoted symbol
  | unbalanced => "unbalanced parentheses"
  | empty => "empty expression"
  | invalidSymbol text => "invalid symbol " ++ Text.quoted text
  | invalidOperator text => "missing or invalid operator before '(' in " ++ Text.quoted text
  | trailingText text => "trailing text after " ++ Text.quoted text
  | unexpectedEnd => "unexpected end of expression"
  | expected token found => "expected " ++ Text.quoted token ++ ", found " ++ Text.quoted found
  | unexpectedToken token => "unexpected token " ++ Text.quoted token
  | notAssociative symbol => "'" ++ symbol ++ " ...' needs an associative operator"

inductive DocumentPart
  | variation (index : Nat)
  | rule (id : Caption)
  deriving DecidableEq

def DocumentPart.text : DocumentPart → String
  | variation index => "variation " ++ toString index
  | rule id => "rule " ++ id.quoted

inductive RuleSetFault
  | unreadable
  | unnamed
  | unknownBase (name : Caption)
  | unparsed (part : DocumentPart) (cause : ParseFault)
  | withoutText (part : DocumentPart)
  | notAStatement (part : DocumentPart)
  | ruleWithoutId (ruleSet : Caption)
  | duplicateId (id : String)
  | notBuiltIn (name : String) (available : List String)
  deriving DecidableEq

def RuleSetFault.message : RuleSetFault → String
  | unreadable => "invalid JSON"
  | unnamed => "a rule set needs a 'name'"
  | unknownBase name => "unknown context base " ++ name.quoted
  | unparsed part cause => part.text ++ ": " ++ cause.message
  | withoutText part => part.text ++ ": needs 'expr_prefix' or 'expr'"
  | notAStatement part => part.text ++ ": not an equation or implication"
  | ruleWithoutId ruleSet => "rule without an id in " ++ ruleSet.quoted
  | duplicateId id => "duplicate rule id " ++ Text.quoted id
  | notBuiltIn name available =>
      "no built-in rule set " ++ Text.quoted name ++ " (available: " ++
        Text.joined ", " available ++ ")"

/-- What a value may be asked for that those of its type do not have. -/
inductive Ability
  | method (name : String)
  | iteration
  | membership
  | itemsAt (index : String)
  | hash
  | text
  deriving DecidableEq

def Ability.message (kind : String) : Ability → String
  | method name => "'" ++ kind ++ "' object has no attribute '" ++ name ++ "'"
  | iteration => "'" ++ kind ++ "' object is not iterable"
  | membership => "argument of type '" ++ kind ++ "' is not iterable"
  | itemsAt index =>
      if kind = "list" then "list indices must be integers or slices, not " ++ index
      else "string indices must be integers, not '" ++ index ++ "'"
  | hash => "unhashable type: '" ++ kind ++ "'"
  | text => "__str__ returned non-string (type " ++ kind ++ ")"

inductive Missing
  | binding (name : String)
  | bindingOfNoMatch (name : String)
  | label (name : String)
  | rule (id : String)
  | ability (kind : String) (asked : Ability)
  deriving DecidableEq

def Missing.message : Missing → String
  | binding name => name
  | bindingOfNoMatch name => "NoMatch has no binding for '" ++ name ++ "'"
  | label name => "Unknown label '" ++ name ++ "'"
  | rule id => "No rule with id '" ++ id ++ "'"
  | ability kind asked => asked.message kind

inductive Fault
  | step (cause : StepFault)
  | shape (cause : ShapeFault)
  | literal (cause : LiteralFault)
  | address (cause : AddressFault)
  | emptySelection
  | arity (requested : Int)
  | sides (count : Nat)
  /-- A closure under variations has more forms than it was allowed to look at. -/
  | tooManyForms (limit : Nat)
  | unknownOperator (name : String)
  | parse (cause : ParseFault)
  | ruleSet (cause : RuleSetFault)
  | missing (cause : Missing)
  | outOfRange
  | noLine (index : Int)
  | overflow (cause : OverflowFault)
  deriving DecidableEq

def LiteralFault.message : LiteralFault → String
  | notAnInteger text => "invalid literal for int() with base 10: " ++ Text.quoted text
  | tooManyDigits count =>
      "Exceeds the limit (" ++ toString Literal.maxDigits ++
        " digits) for integer string conversion: value has " ++ toString count ++
        " digits; use sys.set_int_max_str_digits() to increase the limit"

def AddressFault.message : AddressFault → String
  | pair cause => cause.message
  | path text => "invalid address: " ++ Text.quoted text

namespace Fault

def message : Fault → String
  | step cause => cause.message
  | shape cause => cause.message
  | literal cause => cause.message
  | address cause => cause.message
  | emptySelection => "expected at least one address"
  | arity requested => "variadic arity must be positive, got " ++ toString requested
  | sides count =>
      if count < 2 then "not enough values to unpack (expected 2, got " ++ toString count ++ ")"
      else "too many values to unpack (expected 2)"
  | tooManyForms limit => "more than " ++ toString limit ++ " forms"
  | unknownOperator name => Text.quoted name ++ " is not a valid ArithmeticOperator"
  | parse cause => cause.message
  | ruleSet cause => cause.message
  | missing cause => cause.message
  | outOfRange => "index out of range"
  | noLine index => "history has no line " ++ toString index
  | overflow cause => cause.message

def isInvalidArgument : Fault → Bool
  | shape _ | literal _ | address _ | emptySelection | arity _ | sides _ | unknownOperator _
  | tooManyForms _ => true
  | _ => false

end Fault

abbrev Attempt := Except Fault

namespace Attempt

def stepFault {α : Type} (cause : StepFault) : Attempt α := .error (.step cause)

/-- The result of a step, or none if the step cannot be taken; other failures remain. -/
def orSkip {α : Type} : Attempt α → Attempt (Option α)
  | .ok value => .ok (some value)
  | .error (.step _) => .ok none
  | .error other => .error other

end Attempt

end Stepwise
