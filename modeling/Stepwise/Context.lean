import Stepwise.Collections
import Stepwise.Number.Literal
import Stepwise.Text.Quoted

/-!
How symbols are read: which names are constants, which operators are unary, binary or associative,
whether numerals are constants, and the switches that normalizers look at.
-/

namespace Stepwise

structure Context where
  parameters : List String
  unaryOps : List String
  binaryOps : List String
  assocOps : List String
  numerals : Bool
  flags : List String
  deriving DecidableEq

namespace Context

def empty : Context := ⟨[], [], [], [], false, []⟩

def arithmetic (parameters : List String) : Context :=
  ⟨parameters, ["-", "/"], ["+", "-", "*", "/"], ["+", "*"], true, []⟩

def addParameters (ctx : Context) (names : List String) : Context :=
  { ctx with parameters := OrderedSet.insertAll ctx.parameters names }

def isNumeral (ctx : Context) (symbol : String) : Bool := ctx.numerals && Literal.isNumber symbol

def isConstant (ctx : Context) (symbol : String) : Bool :=
  symbol ∈ ctx.parameters || ctx.isNumeral symbol

def agrees (a b : Context) : Bool :=
  a.parameters = b.parameters && a.unaryOps = b.unaryOps && a.binaryOps = b.binaryOps &&
    a.assocOps = b.assocOps && a.numerals = b.numerals && OrderedSet.sameElements a.flags b.flags

def boolText (b : Bool) : String := if b then "True" else "False"

def debugText (ctx : Context) : String :=
  "Context(parameters=" ++ Text.quotedList ctx.parameters ++
    ", unary_ops=" ++ Text.quotedList ctx.unaryOps ++
    ", binary_ops=" ++ Text.quotedList ctx.binaryOps ++
    ", assoc_ops=" ++ Text.quotedList ctx.assocOps ++
    ", handle_numerics=" ++ boolText ctx.numerals ++ ")"

end Context

end Stepwise
