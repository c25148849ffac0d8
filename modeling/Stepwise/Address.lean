import Stepwise.Number.Literal
import Stepwise.Text.Basic
import Stepwise.Text.Quoted

/-!
Positions inside an expression. The path lists child indices from the root; a pair, if set,
selects two neighbouring terms of the train at the end of the path. Addresses are ordered by path,
then by pair, an unset pair counting as -1.
-/

namespace Stepwise

structure Address where
  path : List Int
  pair : Option Int
  deriving DecidableEq

inductive AddressFault
  | pair (cause : LiteralFault)
  | path (text : String)
  deriving DecidableEq

namespace Address

def root : Address := ⟨[], none⟩

def ofPath (path : List Int) : Address := ⟨path, none⟩

def withPair (a : Address) (pair : Option Int) : Address := ⟨a.path, pair⟩

def child (a : Address) (index : Int) : Address := ⟨a.path ++ [index], none⟩

def parent? (a : Address) : Option Address :=
  if a.path.isEmpty then none else some ⟨a.path.dropLast, none⟩

def isRoot (a : Address) : Bool := a.path.isEmpty && a.pair.isNone

def startsWith (a other : Address) : Bool := other.path.isPrefixOf a.path

def pathBefore : List Int → List Int → Bool
  | _, [] => false
  | [], _ :: _ => true
  | i :: p, j :: q => i < j || i = j && pathBefore p q

def pairRank (a : Address) : Int := a.pair.getD (-1)

def before (a b : Address) : Bool :=
  pathBefore a.path b.path || a.path = b.path && a.pairRank < b.pairRank

def atMost (a b : Address) : Bool := a.before b || a = b

def after (a b : Address) : Bool := !a.before b && a ≠ b

def atLeast (a b : Address) : Bool := !a.before b

def insertSorted (a : Address) : List Address → List Address
  | [] => [a]
  | b :: rest => if a.before b then a :: b :: rest else b :: insertSorted a rest

def sort (addresses : List Address) : List Address :=
  addresses.foldl (fun sorted a => insertSorted a sorted) []

def pathText (path : List Int) : String :=
  if path.isEmpty then "." else Text.joined "." (path.map toString)

def text (a : Address) : String :=
  match a.pair with
  | none => pathText a.path
  | some pair => pathText a.path ++ ":" ++ toString pair

def listText (path : List Int) : String := "[" ++ Text.joined ", " (path.map toString) ++ "]"

def debugText (a : Address) : String :=
  match a.pair with
  | none => "Address(" ++ listText a.path ++ ")"
  | some pair => "Address(" ++ listText a.path ++ ", sub=" ++ toString pair ++ ")"

def readParts : List (List Char) → Option (List Int)
  | [] => some []
  | part :: rest =>
      match Literal.readInt (String.ofList part) with
      | .ok index => (readParts rest).map (index :: ·)
      | .error _ => none

def readPath (cs : List Char) : Except AddressFault (List Int) :=
  if cs = [] ∨ cs = ['.'] then .ok []
  else
    match readParts (Text.splitAt '.' cs) with
    | some path => .ok path
    | none => .error (.path (String.ofList cs))

/-- Reads the compact form; the pair is read before the path. -/
def read (text : String) : Except AddressFault Address :=
  let cs := Text.trim text.toList
  match cs.dropWhile (· ≠ ':') with
  | [] => (readPath cs).map ofPath
  | _ :: pairText =>
      match Literal.readInt (String.ofList pairText) with
      | .error cause => .error (.pair cause)
      | .ok pair => (readPath (cs.takeWhile (· ≠ ':'))).map fun path => ⟨path, some pair⟩

end Address

end Stepwise
