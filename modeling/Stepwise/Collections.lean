/-!
Lists of names without repetition, in order of first appearance; positions in a list that are given
by integers, a negative one counting from the end, the last element being -1; and tables from names
to values, in the order in which the names were first bound.
-/

namespace Stepwise.OrderedSet

def insert (names : List String) (name : String) : List String :=
  if name ∈ names then names else names ++ [name]

def insertAll (names : List String) (more : List String) : List String := more.foldl insert names

def sameElements (a b : List String) : Bool := a.all (· ∈ b) && b.all (· ∈ a)

theorem mem_insert (names : List String) (name other : String) :
    other ∈ insert names name ↔ other ∈ names ∨ other = name := by
  unfold insert
  split
  next present =>
    constructor
    · exact Or.inl
    · rintro (member | rfl)
      · exact member
      · exact present
  next absent => simp

end Stepwise.OrderedSet

namespace Stepwise.Index

def place? (length : Nat) (index : Int) : Option Nat :=
  if 0 ≤ index then
    if index < length then some index.toNat else none
  else if -(length : Int) ≤ index then some (index + length).toNat
  else none

variable {α : Type}

def get? (xs : List α) (index : Int) : Option α :=
  match place? xs.length index with
  | some place => xs[place]?
  | none => none

def set? (xs : List α) (index : Int) (value : α) : Option (List α) :=
  (place? xs.length index).map fun place => xs.set place value

def forward? (xs : List α) (index : Int) : Option α :=
  if 0 ≤ index then xs[index.toNat]? else none

end Stepwise.Index

namespace Stepwise

abbrev Table (α : Type) := List (String × α)

namespace Table

variable {α : Type}

def find? (name : String) : Table α → Option α
  | [] => none
  | (key, value) :: rest => if key = name then some value else find? name rest

def has (t : Table α) (name : String) : Bool := (t.find? name).isSome

def set (name : String) (value : α) : Table α → Table α
  | [] => [(name, value)]
  | (key, old) :: rest =>
      if key = name then (key, value) :: rest else (key, old) :: set name value rest

def ofList (pairs : List (String × α)) : Table α :=
  pairs.foldl (fun t pair => t.set pair.1 pair.2) []

def keys (t : Table α) : List String := t.map Prod.fst

def values (t : Table α) : List α := t.map Prod.snd

def sameBindings [DecidableEq α] (a b : Table α) : Bool :=
  a.length = b.length && a.all fun pair => b.find? pair.1 = some pair.2

end Table

end Stepwise
