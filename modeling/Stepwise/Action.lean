import Stepwise.Fault

/-!
How a line of a worksheet came about: it was introduced, it is the result of a rule, or of another
step.
-/

namespace Stepwise

inductive Action
  | introduce (source : Option String)
  | rule (label : Caption)
  | step (description : String)
  deriving DecidableEq

namespace Action

def kindName : Action → String
  | introduce _ => "Introduce"
  | rule _ => "ApplyRule"
  | step _ => "ApplyAction"

def detail? : Action → Option Caption
  | introduce source => source.map Caption.text
  | rule label => some label
  | step description => some description

def text : Action → String
  | introduce none => "Introduce"
  | introduce (some source) => "Introduce from " ++ source
  | rule label => label
  | step description => description

/-- The text of the action, for which the label of a rule must be one. -/
def said : Action → Attempt String
  | rule (.other _ kind) => .error (.missing (.ability kind .text))
  | action => .ok action.text

def debugText (action : Action) : String :=
  "Action(" ++ action.kindName ++ ", " ++
    (match action.detail? with
      | some detail => detail.quoted
      | none => "None") ++ ")"

end Action

end Stepwise
