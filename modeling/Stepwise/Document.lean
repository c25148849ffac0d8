import Stepwise.Files
import Stepwise.Json.Read
import Stepwise.Parse.Applied
import Stepwise.Parse.Infix
import Stepwise.Rule.Set
import Stepwise.Text.Basic

/-!
Rule sets as JSON documents: a name, a context, variations, and rules with an identifier, a label,
a statement in one of the two notations, and a mark for automatic application. A document names a
context to start from and extends it. Where a part has another type, it may lack what it is asked
for, which is not reported as a fault of the rule set.
-/

namespace Stepwise

namespace Json

def lacks (j : Json) (asked : Ability) : Fault := .missing (.ability j.kindName asked)

/-- What a loop goes through: the items of a list, the characters of a text, the names of an
object's members. -/
def iterated : Json → Attempt (List Json)
  | list values => .ok values
  | text value => .ok (value.toList.map fun c => text (String.singleton c))
  | object members => .ok (members.map fun member => text member.1)
  | other => .error (other.lacks .iteration)

def got (name : String) : Json → Attempt (Option Json)
  | object members => .ok (Table.find? name members)
  | other => .error (other.lacks (.method "get"))

def isText (written : String) : Json → Bool
  | text value => value = written
  | _ => false

/-- What stands under a name that occurs in the value. In a list or a text it can occur, but nothing
stands under it. -/
def under (name : String) : Json → Attempt (Option Json)
  | object members => .ok (Table.find? name members)
  | list values =>
      if values.any (isText name) then .error ((list values).lacks (.itemsAt "str")) else .ok none
  | text value =>
      if Text.occurs name.toList value.toList then .error ((text value).lacks (.itemsAt "str"))
      else .ok none
  | other => .error (other.lacks .membership)

def written (method : String) : Json → Attempt String
  | text value => .ok value
  | other => .error (other.lacks (.method method))

def checkHash : Json → Attempt Unit
  | list values => .error ((list values).lacks .hash)
  | object members => .error ((object members).lacks .hash)
  | _ => .ok ()

end Json

namespace Context

def base? : Json → Option Context
  | .text "arithmetic" => some (arithmetic [])
  | _ => none

def startOf (data : Json) : Attempt Context := do
  match ← data.got "base" with
  | none | some .null => return empty
  | some base =>
      base.checkHash
      match base? base with
      | some ctx => return ctx
      | none => .error (.ruleSet (.unknownBase base.caption))

def listed (data : Json) (name : String) : Attempt (List Json) := do
  match ← data.got name with
  | some values => values.iterated
  | none => return []

/-- The texts among some values; no symbol is equal to any other. -/
def symbols (values : List Json) : List String :=
  values.filterMap fun
    | .text symbol => some symbol
    | _ => none

def ofDocument (data : Json) : Attempt Context := do
  let start ← startOf data
  let parameters ← listed data "parameters"
  let unaryOps ← listed data "unary_ops"
  let binaryOps ← listed data "binary_ops"
  let assocOps ← listed data "assoc_ops"
  let flags ← listed data "flags"
  flags.forM Json.checkHash
  let ctx := start.addParameters (symbols parameters)
  return { ctx with
    unaryOps := OrderedSet.insertAll ctx.unaryOps (symbols unaryOps)
    binaryOps := OrderedSet.insertAll ctx.binaryOps (symbols binaryOps)
    assocOps := OrderedSet.insertAll ctx.assocOps (symbols assocOps)
    numerals := match data.member? "handle_numerics" with
      | some value => value.isTruthy
      | none => ctx.numerals
    flags := OrderedSet.insertAll ctx.flags (symbols flags) }

end Context

/-! Rule sets. -/

namespace RuleSet

def reported (part : DocumentPart) : Attempt Expr → Attempt Expr
  | .error (.parse cause) => .error (.ruleSet (.unparsed part cause))
  | attempt => attempt

def entryStatement (ctx : Context) (part : DocumentPart) (entry : Json) : Attempt Expr := do
  match ← entry.under "expr_prefix" with
  | some value => reported part (Parse.applied ctx (← value.written "strip"))
  | none =>
      match ← entry.under "expr" with
      | some value => reported part (Parse.infixed ctx (← value.written "rstrip"))
      | none => .error (.ruleSet (.withoutText part))

def readVariations (ctx : Context) (index : Nat) : List Json → Attempt (List Expr)
  | [] => .ok []
  | entry :: rest => do
      let first ← entryStatement ctx (.variation index) entry
      let others ← readVariations ctx (index + 1) rest
      return first :: others

def enterDocumented (rs : RuleSet) (variations : List Expr) (entry : Json) : Logged RuleSet := do
  match ← .ofAttempt (entry.under "id") with
  | none => .ofAttempt (.error (.ruleSet (.ruleWithoutId rs.name)))
  | some id =>
      let part := DocumentPart.rule id.caption
      let statement ← .ofAttempt (entryStatement rs.context part entry)
      if statement.isEquation || statement.isImplication then
        let label := ((entry.member? "label").getD id).caption
        let auto := ((entry.member? "auto").getD .null).isTruthy
        rs.enter variations id.symbolText label auto statement
      else .ofAttempt (.error (.ruleSet (.notAStatement part)))

def enterAllDocumented (variations : List Expr) (rs : RuleSet) : List Json → Logged RuleSet
  | [] => pure rs
  | entry :: rest => do
      let extended ← rs.enterDocumented variations entry
      enterAllDocumented variations extended rest

def normalizationOf (document : Json) : Option Caption :=
  match document.member? "normalization" with
  | none | some .null => none
  | some name => some name.caption

def entries (document : Json) (name : String) : Attempt (List Json) :=
  ((document.member? name).getD (.list [])).iterated

def ofDocument (document : Json) : Logged RuleSet :=
  match document.member? "name" with
  | none => .ofAttempt (.error (.ruleSet .unnamed))
  | some name => do
      let context ← .ofAttempt
        (Context.ofDocument ((document.member? "context").getD (.object [])))
      let varied ← .ofAttempt (entries document "variations")
      let variations ← .ofAttempt (readVariations context 0 varied)
      let rules ← .ofAttempt (entries document "rules")
      enterAllDocumented variations (empty name.caption context (normalizationOf document)) rules

def read (written : String) : Logged RuleSet :=
  match Json.decode written with
  | .ok document => ofDocument document
  | .error .malformed => .ofAttempt (.error (.ruleSet .unreadable))
  | .error (.literal cause) => .ofAttempt (.error (.literal cause))

end RuleSet

inductive LoadFault
  | file (cause : FileFault)
  | document (cause : RuleSetFault)
  deriving DecidableEq

namespace LoadFault

def message : LoadFault → String
  | file cause => cause.message
  | document cause => cause.message

def report (path : String) (fault : LoadFault) : String :=
  "Error loading " ++ path ++ ": " ++ fault.message

end LoadFault

namespace RuleSet

def diagnosed (loaded : Logged RuleSet) : Logged (Except LoadFault RuleSet) :=
  ⟨loaded.notices,
    match loaded.result with
    | .ok rules => .ok (.ok rules)
    | .error (.ruleSet cause) => .ok (.error (.document cause))
    | .error fault => .error fault⟩

def load (files : Files) (path : String) : Logged (Except LoadFault RuleSet) :=
  match files.read path with
  | .ok written => diagnosed (read written)
  | .error cause => pure (.error (.file cause))

end RuleSet

end Stepwise
