import Stepwise.Text.Basic
import Stepwise.Text.Quoted

/-!
Named text files, as far as a session reads them.
-/

namespace Stepwise

inductive FileFault
  | missing (path : String)
  | directory (path : String)
  | notADirectory (path : String)
  deriving DecidableEq

def FileFault.message : FileFault → String
  | missing path => "[Errno 2] No such file or directory: " ++ Text.quoted path
  | directory path => "[Errno 21] Is a directory: " ++ Text.quoted path
  | notADirectory path => "[Errno 20] Not a directory: " ++ Text.quoted path

abbrev Files := String → Except FileFault String

namespace Files

def pathNames (path : String) : List String :=
  ((Text.splitAt '/' path.toList).map String.ofList).filter fun name => name ≠ "" && name ≠ "."

def rootOf (path : String) : String :=
  let slashes := (path.toList.takeWhile (· = '/')).length
  if slashes = 0 then "" else if slashes = 2 then "//" else "/"

def plainPath (path : String) : String :=
  let names := Text.joined "/" (pathNames path)
  if rootOf path = "" && names = "" then "." else rootOf path ++ names

def read (files : Files) (path : String) : Except FileFault String :=
  (files (plainPath path)).map fun text => String.ofList (Text.unifyNewlines text.toList)

def isBelow (path other : String) : Bool :=
  (path.toList ++ ['/']).isPrefixOf other.toList

def ofList (entries : List (String × String)) : Files := fun path =>
  match entries.find? fun entry => entry.1 = path with
  | some entry => .ok entry.2
  | none =>
      if path = "." ∨ path = "/" ∨ path = ".." then .error (.directory path)
      else if entries.any fun entry => isBelow path entry.1 then .error (.directory path)
      else if entries.any fun entry => isBelow entry.1 path then .error (.notADirectory path)
      else .error (.missing path)

end Files

end Stepwise
