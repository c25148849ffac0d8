import Stepwise.Collections
import Stepwise.Number.Written
import Stepwise.Text.Quoted

/-!
JSON values. Integers and doubles are kept apart, and the members of an object keep the order in
which their names first occur.
-/

namespace Stepwise

inductive Json
  | null
  | bool (value : Bool)
  | int (value : Int)
  | double (value : Double)
  | text (value : String)
  | list (items : List Json)
  | object (members : List (String × Json))

/-- What a rule or a rule set is called. Where no text stands in the place of a name, the value is
shown as its literal, and `kind` is the name of its type. -/
inductive Caption
  | text (written : String)
  | other (literal kind : String)
  deriving DecidableEq

namespace Caption

def shown : Caption → String
  | text written => written
  | other literal _ => literal

def quoted : Caption → String
  | text written => Text.quoted written
  | other literal _ => literal

instance : Coe String Caption := ⟨text⟩

instance : Coe Caption String := ⟨shown⟩

end Caption

namespace Json

def member? (name : String) : Json → Option Json
  | object members => Table.find? name members
  | _ => none

def items : Json → List Json
  | list values => values
  | _ => []

/-- Everything counts as true but null, false, zero and what is empty. -/
def isTruthy : Json → Bool
  | null => false
  | bool value => value
  | int value => value ≠ 0
  | double value => !value.isZero
  | text value => value ≠ ""
  | list values => !values.isEmpty
  | object members => !members.isEmpty

def kindName : Json → String
  | null => "NoneType"
  | bool _ => "bool"
  | int _ => "int"
  | double _ => "float"
  | text _ => "str"
  | list _ => "list"
  | object _ => "dict"

mutual

def literal : Json → String
  | null => "None"
  | bool value => if value then "True" else "False"
  | int value => toString value
  | double value => value.text
  | text value => Text.quoted value
  | list values => "[" ++ Text.joined ", " (literals values) ++ "]"
  | object members => "\x7b" ++ Text.joined ", " (memberLiterals members) ++ "\x7d"

def literals : List Json → List String
  | [] => []
  | value :: rest => literal value :: literals rest

def memberLiterals : List (String × Json) → List String
  | [] => []
  | (name, value) :: rest => (Text.quoted name ++ ": " ++ literal value) :: memberLiterals rest

end

def caption : Json → Caption
  | text value => .text value
  | other => .other other.literal other.kindName

def symbolText (j : Json) : String := j.caption.shown

end Json

end Stepwise
