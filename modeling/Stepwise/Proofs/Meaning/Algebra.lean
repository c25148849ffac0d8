import Stepwise.Proofs.Meaning.Rule
import Stepwise.Rule.Algebra

/-!
The rules of algebra are sound, in all forms in which they are entered, apart from the division of
something by itself.
-/

namespace Stepwise.Interpretation

open Stepwise.Expr

/-- The rule that fails for a divisor zero. -/
def selfDivision : String := "algebra/self_div"

def plainLaws : List (Expr × Expr) := [
  (.binary "+" (var "X") (const "0"), var "X"),
  (.binary "+" (const "0") (var "X"), var "X"),
  (.binary "*" (var "X") (const "1"), var "X"),
  (.binary "*" (const "1") (var "X"), var "X"),
  (.binary "*" (var "X") (const "0"), const "0"),
  (.binary "*" (const "0") (var "X"), const "0"),
  (.binary "/" (var "X") (const "1"), var "X"),
  (.binary "+" (var "X") (.unary "-" (var "X")), const "0"),
  (.binary "+" (.unary "-" (var "X")) (var "X"), const "0"),
  (.binary "+" (var "X") (var "X"), .binary "*" (const "2") (var "X")),
  (.unary "-" (.unary "-" (var "X")), var "X"),
  (.binary "*" (var "X") (.unary "-" (var "Y")), .unary "-" (.binary "*" (var "X") (var "Y"))),
  (.binary "*" (.unary "-" (var "Y")) (var "X"), .unary "-" (.binary "*" (var "X") (var "Y"))),
  (equation (var "A") (var "B"), equation (var "B") (var "A"))]

def products : Expr := variadicTrain "+" (.binary "*" (var "X") (var "A"))

def distributiveLaws : List (Expr × Expr) := [
  (.binary "*" (var "X") (variadicTrain "+" (var "A")), products),
  (.binary "*" (variadicTrain "+" (var "A")) (var "X"), products)]

/-- Both sides have the same meaning, whatever the number of copies. -/
def Holds (I : Interpretation) (lhs rhs : Expr) : Prop :=
  ∀ count, 1 ≤ count → ∀ ν, I.meaning ν (rhs.expandAll lhs.fixedVariables count) =
    I.meaning ν (lhs.expandAll lhs.fixedVariables count)

section

variable {I : Interpretation}

theorem plainLaws_markerFree : ∀ law ∈ plainLaws, law.1.MarkerFree ∧ law.2.MarkerFree := by
  decide

theorem plainLaws_mean (usual : I.Usual) (ν : String → ℚ) :
    ∀ law ∈ plainLaws, I.meaning ν law.2 = I.meaning ν law.1 := by
  simp only [plainLaws, List.forall_mem_cons, List.not_mem_nil, false_implies, implies_true,
    meaning_binary, meaning_unary, meaning_variable, meaning_const, meaning_equation, usual.add,
    usual.mul, usual.neg, usual.zero, usual.one, usual.two, usual.div_one, usual.equal, and_true]
  exact ⟨by ring, by ring, by ring, by ring, by ring, by ring, trivial, by ring, by ring, by ring,
    by ring, by ring, by ring, if_congr eq_comm rfl rfl⟩

theorem plainLaws_hold (usual : I.Usual) : ∀ law ∈ plainLaws, I.Holds law.1 law.2 := by
  intro law member count _ ν
  obtain ⟨left, right⟩ := plainLaws_markerFree law member
  rw [left.expandAll_eq, right.expandAll_eq]
  exact plainLaws_mean usual ν law member

theorem meaning_products (usual : I.Usual) {count : Nat} (positive : 1 ≤ count) (ν : String → ℚ) :
    I.meaning ν (train "+" (copies ["X"] (.binary "*" (var "X") (var "A")) count)) =
      ν "X" * I.meaning ν (train "+" (copies ["X"] (var "A") count)) := by
  rw [meaning_eq_value, meaning_eq_value]
  exact (Model.value_products ν usual.isRing.distributes positive).trans (usual.mul _ _)

theorem distributiveLaws_hold (usual : I.Usual) :
    ∀ law ∈ distributiveLaws, I.Holds law.1 law.2 := by
  simp only [distributiveLaws, List.forall_mem_cons]
  have left : (Expr.binary "*" (var "X") (variadicTrain "+" (var "A"))).fixedVariables = ["X"] := by
    decide
  have right : (Expr.binary "*" (variadicTrain "+" (var "A")) (var "X")).fixedVariables = ["X"] := by
    decide
  refine ⟨?_, ?_, by simp⟩
  · intro count positive ν
    rw [left]
    change I.meaning ν (train "+" (copies ["X"] (.binary "*" (var "X") (var "A")) count)) =
      I.meaning ν (.binary "*" (var "X") (train "+" (copies ["X"] (var "A") count)))
    rw [meaning_products usual positive, meaning_binary, usual.mul, meaning_variable]
  · intro count positive ν
    rw [right]
    change I.meaning ν (train "+" (copies ["X"] (.binary "*" (var "X") (var "A")) count)) =
      I.meaning ν (.binary "*" (train "+" (copies ["X"] (var "A") count)) (var "X"))
    rw [meaning_products usual positive, meaning_binary, usual.mul, meaning_variable, mul_comm]

/-- The conditions of soundness that can be checked. -/
def isAdmissible (rule : Rule) : Bool :=
  (equation rule.lhs rule.rhs).WellShaped ∧ (equation rule.lhs rule.rhs).FlatTemplates ∧
    ellipsis ∉ (equation rule.lhs rule.rhs).variableNames ∧
    (∀ name ∈ (equation rule.lhs rule.rhs).variableNames, '_' ∉ name.toList) ∧
    rule.rhs.Formed (trainsOver ["+", "*"]) ∧ (rule.lhs.MarkerFree → rule.rhs.MarkerFree) ∧
    (rule.relation = .implication → rule.lhs.MarkerFree)

theorem isSound_of_holds {rule : Rule} (admissible : isAdmissible rule = true)
    (holds : I.Holds rule.lhs rule.rhs) : I.IsSound rule := by
  simp only [isAdmissible, decide_eq_true_eq] at admissible
  obtain ⟨shaped, flat, absent, noUnderscore, trains, expands, premise⟩ := admissible
  exact ⟨⟨shaped, flat, Separate.of_no_underscore absent noUnderscore⟩, trains, expands, premise,
    holds⟩

theorem algebra_rules {rs : RuleSet} (loaded : RuleSet.algebra.result = .ok rs) :
    ∀ rule ∈ rs.rules, rule.id ≠ selfDivision →
      isAdmissible rule = true ∧ (rule.lhs, rule.rhs) ∈ plainLaws ++ distributiveLaws := by
  have checked : (RuleSet.algebra.result.toOption.map fun rs => rs.rules.all fun rule =>
      rule.id = selfDivision || isAdmissible rule &&
        (rule.lhs, rule.rhs) ∈ plainLaws ++ distributiveLaws) = some true := by
    decide +kernel
  rw [loaded] at checked
  simp only [Except.toOption, Option.map_some, Option.some.injEq, List.all_eq_true,
    Bool.or_eq_true, Bool.and_eq_true, decide_eq_true_eq] at checked
  intro rule member other
  exact (checked rule member).resolve_left other

theorem algebra_isSound (usual : I.Usual) {rs : RuleSet} (loaded : RuleSet.algebra.result = .ok rs)
    {rule : Rule} (member : rule ∈ rs.rules) (other : rule.id ≠ selfDivision) :
    I.IsSound rule := by
  obtain ⟨admissible, isLaw⟩ := algebra_rules loaded rule member other
  apply isSound_of_holds admissible
  rcases List.mem_append.mp isLaw with plain | distributive
  · exact plainLaws_hold usual (rule.lhs, rule.rhs) plain
  · exact distributiveLaws_hold usual (rule.lhs, rule.rhs) distributive

end

end Stepwise.Interpretation
