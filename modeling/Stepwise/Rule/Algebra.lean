import Stepwise.Rule.Set

/-!
The rules of algebra. Sums and products may be exchanged, so a rule whose left side is one is
entered in two forms unless they coincide.
-/

namespace Stepwise.RuleSet

open Stepwise.Expr

structure Entry where
  id : String
  label : String
  statement : Expr

def exchange (symbol : String) : Expr :=
  equation (binary symbol (var "A") (var "B")) (binary symbol (var "B") (var "A"))

def algebraEntries : List Entry := [
  ⟨"add_zero", "Addition with 0", equation (binary "+" (var "X") (const "0")) (var "X")⟩,
  ⟨"mul_one", "Multiplication with 1", equation (binary "*" (var "X") (const "1")) (var "X")⟩,
  ⟨"mul_zero", "Multiplication with 0",
    equation (binary "*" (var "X") (const "0")) (const "0")⟩,
  ⟨"div_one", "Division by 1", equation (binary "/" (var "X") (const "1")) (var "X")⟩,
  ⟨"self_sub", "Self subtraction",
    equation (binary "+" (var "X") (unary "-" (var "X"))) (const "0")⟩,
  ⟨"self_add", "Self addition",
    equation (binary "+" (var "X") (var "X")) (binary "*" (const "2") (var "X"))⟩,
  ⟨"self_div", "Self division", equation (binary "/" (var "X") (var "X")) (const "1")⟩,
  ⟨"neg_neg", "Double negation", equation (unary "-" (unary "-" (var "X"))) (var "X")⟩,
  ⟨"mul_neg", "Factor out the minus sign",
    equation (binary "*" (var "X") (unary "-" (var "Y")))
      (unary "-" (binary "*" (var "X") (var "Y")))⟩,
  ⟨"distribute", "Distribute multiplication",
    equation (binary "*" (var "X") (variadicTrain "+" (var "A")))
      (variadicTrain "+" (binary "*" (var "X") (var "A")))⟩,
  ⟨"flip", "Flip the equation",
    implication (equation (var "A") (var "B")) (equation (var "B") (var "A"))⟩]

def enterAll (variations : List Expr) (rs : RuleSet) : List Entry → Logged RuleSet
  | [] => pure rs
  | entry :: rest => do
      let extended ← rs.enter variations entry.id entry.label false entry.statement
      enterAll variations extended rest

def algebra : Logged RuleSet :=
  enterAll [exchange "+", exchange "*"]
    (empty "algebra" (Context.arithmetic []) (some "algebra")) algebraEntries

def builtInNames : List String := ["algebra"]

def builtIn (name : String) : Logged RuleSet :=
  if name = "algebra" then algebra
  else .ofAttempt (.error (.ruleSet (.notBuiltIn name builtInNames)))

end Stepwise.RuleSet
