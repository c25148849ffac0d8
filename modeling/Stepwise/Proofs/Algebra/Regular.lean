import Stepwise.Proofs.Algebra.Shaped
import Stepwise.Proofs.Deduction.Regular
import Stepwise.Proofs.Meaning.Derivation

/-!
The steps of algebra make regular trees of tidy ones, where no marker is captured. Only cancelling
factors can leave trains of a single term.
-/

namespace Stepwise

open Stepwise.Interpretation

namespace Expr

theorem products_strays {bindings : Bindings} (arity : bindings.arity = .ok (some ((1 : Nat) : Int)))
    (free : "A" ∉ bindings.keys) (captured : (bindings.toSubst "A_1").isMarker = true)
    (image : Expr) : products.instantiate bindings ≠ .ok image := by
  intro built
  rw [instantiate, products, variadicTrain, train,
    instantiateRenamed_expanded _ _ _ _ _ (Nat.le_refl 1) arity] at built
  obtain ⟨terms, copied, _⟩ := Attempt.bind_eq_ok.mp built
  rw [List.range_one, List.mapM_cons] at copied
  obtain ⟨term, made, _⟩ := Attempt.bind_eq_ok.mp copied
  rw [binary, instantiateRenamed_node _ _ _ _ _ (by decide) rfl] at made
  obtain ⟨operands, each, joined⟩ := Attempt.bind_eq_ok.mp made
  have renamed : copyName bindings.keys ((0 + 1 : Nat) : Int) "A" = "A_1" := by
    rw [copyName_of_not_mem free]
    decide
  simp only [instantiateEach, var, instantiateRenamed_var, bind, Except.bind, id, renamed] at each
  obtain rfl := Except.ok.inj each
  have operand := isMarker_of_build (by decide) joined (bindings.toSubst "A_1") (by simp)
  simp [captured] at operand

theorem distributiveLaws_checked : ∀ law ∈ distributiveLaws,
    (equation law.1 law.2).Regular ["+", "*"] several ∧ law.1.FlatTemplates ∧
      law.1.HasVariadicTrain ∧ law.2 = products ∧
      ellipsis ∉ law.1.variableNames ∧ (∀ name ∈ law.1.variableNames, '_' ∉ name.toList) ∧
      "A" ∉ OrderedSet.insertAll [] (law.1.boundNames law.1.fixedVariables 1) ∧
      (law.1.expandAll law.1.fixedVariables 1 = binary "*" (var "X") (train "+" [var "A_1"]) ∨
        law.1.expandAll law.1.fixedVariables 1 = binary "*" (train "+" [var "A_1"]) (var "X")) := by
  decide

theorem isMarker_of_single {symbol : String} {term : Expr}
    (regular : (train symbol [term]).Regular ["+", "*"] several) : term.isMarker = true := by
  rw [train] at regular
  by_cases variadic : (node .train symbol [term]).isVariadicTrain = true
  · simpa using regular.shaped.isVariadicTrain_iff.mp variadic
  · have isGroup : (node .train symbol [term]).isGroupOf symbol = true := by
      simp [isGroupOf, variadic]
    have enough := regular.groups.here isGroup
    simp [several] at enough

theorem keepsRegular_distributive {target : Expr} (regular : target.Regular ["+", "*"] several) :
    ∀ law ∈ distributiveLaws, KeepsRegular ["+", "*"] law.1 law.2 target := by
  intro law member image settled
  obtain ⟨sides, flat, variadic, same, absent, noUnderscore, unbound, expanded⟩ :=
    distributiveLaws_checked law member
  have left := sides.child (List.mem_cons_self ..)
  have right := sides.child (List.mem_cons_of_mem _ (List.mem_singleton_self law.2))
  have roots := sides.shaped.sides
  rcases settle_eq_ok settled with ⟨rfl, rfl⟩ |
    ⟨bindings, groundLhs, groundRhs, rest, found, builtLhs, builtRhs, leftRoot, root, passes, later⟩
  · exact ⟨roots.1.2, roots.2.2, right⟩
  · obtain ⟨count, counted⟩ := exists_counted regular.shaped left.shaped roots.1.2 found
    have readable := arity_of_instantiate_ok left.shaped variadic builtLhs
    have notFree : ¬law.1.MarkerFree := fun free => free.not_hasVariadicTrain variadic
    have arity := counted.arity_eq notFree readable
    have closes := instantiate_of_bindings? regular.shaped left.shaped roots.1.2 flat
      (Separate.of_no_underscore absent noUnderscore) found counted (Or.inr arity)
    obtain rfl := Except.ok.inj (closes.symm.trans builtLhs)
    obtain rfl : rest = 7 := Nat.succ.inj passes
    rw [settle_self] at later
    obtain rfl := Except.ok.inj later
    have several : 2 ≤ count := by
      by_contra few
      obtain rfl : count = 1 := by
        have := counted.1
        omega
      have keys := keys_of_bindings? left.shaped flat counted found
      have image := subst_of_bindings? regular.shaped left.shaped flat counted found
      have single : (train "+" [bindings.toSubst "A_1"]) ∈ target.children := by
        rw [← image]
        rcases expanded with same | same
        all_goals simp [same, binary, train, var, subst_node]
      obtain ⟨kind, symbol, children⟩ := target
      have captured := isMarker_of_single (regular.child single)
      rw [same] at builtRhs
      exact products_strays arity (keys ▸ unbound) captured _ builtRhs
    have spreads : bindings.Spreads := by
      intro number read
      have same := Option.some.inj (Except.ok.inj (read.symm.trans arity))
      omega
    exact ⟨leftRoot, root, right.instantiate spreads (regular_values regular found) builtRhs⟩

variable {ops : List String}

theorem regular_ofNumber {test : String → List Expr → Bool} (n : Number) :
    (ofNumber n).Regular ops test := by
  unfold ofNumber
  split
  · exact regular_node rfl (regularNodes_of_ne (by decide) (by decide) _) (by simp)
      (by simpa using ⟨regular_const _, rfl⟩)
  · exact regular_const _

theorem isMarker_of_value {e : Expr} {n : Number} (valued : e.value = .ok (some n)) :
    e.isMarker = false := by
  obtain ⟨kind, symbol, children⟩ := e
  cases kind with
  | variadic =>
      obtain ⟨operation, _, known, _⟩ := value_node (by decide) symbol children valued
      simp [Operation.ofNode?] at known
  | _ => rfl

theorem regular_of_onBothSides {e : Expr} (regular : e.Regular ["+", "*"] several)
    (isEquation : e.isEquation = true) {symbol name : String} {value fn both : Expr}
    (valueRegular : value.Regular ["+", "*"] several)
    (operated : operationBy symbol value = .ok (fn, name)) (applied : e.onBothSides fn = .ok both) :
    both.Regular ["+", "*"] several ∧ both.isMarker = false := by
  obtain ⟨lhs, rhs, rfl, left, right⟩ := exists_sides regular.shaped isEquation
  rw [onBothSides_operation left right valueRegular.shaped operated] at applied
  obtain rfl := Except.ok.inj applied
  have notMarker := (operationBy_eq_ok operated).1
  have joined {side : Expr} (sideRegular : side.Regular ["+", "*"] several)
      (root : side.isMarker = false) : (binary symbol side value).Regular ["+", "*"] several :=
    regular_node rfl (regularNodes_of_ne (by decide) (by decide) _) (fun _ => rfl)
      (by simpa using ⟨⟨sideRegular, root⟩, valueRegular, notMarker⟩)
  have first := joined (regular.child (List.mem_cons_self ..)) left.2
  have second := joined (regular.child (List.mem_cons_of_mem _ (List.mem_singleton_self rhs)))
    right.2
  refine ⟨regular_node rfl (regularNodes_of_ne (by decide) (by decide) _) (by simp) ?_, rfl⟩
  simpa using ⟨⟨first, rfl⟩, second, rfl⟩

theorem regular_of_reordered {parent swapped : Expr} (regular : parent.Regular ops several)
    {i j : Int} (exchanged : parent.reordered? i j = .ok (some swapped)) :
    swapped.Regular ops several ∧ parent.isMarker = false ∧ swapped.isMarker = false := by
  obtain ⟨children, built, same, _, groups⟩ := reordered?_eq_ok exchanged
  obtain ⟨kind, symbol, operands⟩ := parent
  have root : (node kind symbol operands).isMarker = false := by
    rcases groups with isTrain | isBinary
    · simp [isMarker, isTrain]
    · simp [isMarker, isBinary]
  simp only [children_node] at same
  have each (child : Expr) (member : child ∈ children) : child ∈ operands := same.mem_iff.mp member
  refine ⟨(regular_of_build ((formed_node _ _ _).mp regular.formed).1.2 (fun isGroup => ?_)
    fun child member => regular.child (each child member)).value built, root, ?_⟩
  · by_contra few
    -- A single operand stays where it is.
    have unchanged : children = operands := by
      rcases operands with _ | ⟨only, _ | ⟨second, rest⟩⟩
      · exact same.eq_nil
      · exact same.eq_singleton
      · have lengths := same.length_eq
        simp only [List.length_cons] at lengths
        omega
    rw [unchanged] at isGroup few
    exact few (of_decide_eq_true (regular.groups.here isGroup))
  · rw [eq_of_build built]
    exact root

theorem mem_asTrain {symbol : String} {e factor : Expr}
    (member : factor ∈ (asTrain symbol e).children) : factor ∈ e.children ∨ factor = e := by
  unfold asTrain at member
  split at member
  · exact Or.inl member
  · exact Or.inr (List.mem_singleton.mp member)

theorem isJoined_ofNumber (n : Number) : (ofNumber n).isJoined = false := by
  unfold ofNumber
  split <;> rfl

theorem regular_of_factors (known : "*" ∈ ops) {part : Expr} (operand : part.isMarker = false)
    (regular : part.Regular ops several) {place : Nat} {factor : Expr}
    (found : (asTrain "*" part).children[place]? = some factor) (n : Number) :
    (train "*" ((asTrain "*" part).children.set place (ofNumber n))).Regular ops loose := by
  have shaped := asTrain_wellShaped "*" ⟨regular.shaped, operand⟩
  rw [asTrain_eq, train] at shaped
  have factors (child : Expr) (member : child ∈ (asTrain "*" part).children) :
      child.Regular ops loose := by
    refine Regular.of_several (fun _ _ => loose_of_several) ?_
    rcases mem_asTrain member with inside | rfl
    · obtain ⟨kind, symbol, children⟩ := part
      exact regular.child inside
    · exact regular
  have numeral : (ofNumber n).Regular ops loose ∧ (ofNumber n).isMarker = false :=
    ⟨regular_ofNumber n, (isOperand_ofNumber n).2⟩
  obtain ⟨bound, _⟩ := List.getElem?_eq_some_iff.mp found
  generalize (asTrain "*" part).children = terms at shaped factors bound ⊢
  have isProduct := regularNodes_train.mpr known
  by_cases several : 2 ≤ terms.length
  · refine regular_node ?_ isProduct (fun _ => loose_of_several (by simpa using several)) ?_
    · rw [countFault?, List.length_set, if_neg (by omega)]
    · intro child member
      rcases List.mem_or_eq_of_mem_set member with old | rfl
      · exact ⟨factors child old, shaped.term_isMarker_eq_false several old⟩
      · exact numeral
  · obtain ⟨only, rfl⟩ := List.length_eq_one_iff.mp (by omega : terms.length = 1)
    obtain rfl : place = 0 := by simpa using bound
    refine regular_node rfl isProduct (fun _ => ?_) (by simpa using numeral)
    simp [loose, isJoined_ofNumber]

theorem regular_of_cancel (known : "*" ∈ ops) {fraction result : Expr}
    (regular : fraction.Regular ops several) {i j : Int}
    (cancelled : fraction.cancel i j = .ok result) :
    result.Regular ops loose ∧ fraction.isMarker = false ∧ result.isMarker = false := by
  obtain ⟨numerator, denominator, top, bottom, _, _, p, q, rfl, above, below, _, _, _, rfl⟩ :=
    cancel_eq_ok cancelled
  have operands := ((wellShaped_iff_of_plain rfl).mp regular.shaped).2
  have upper := regular_of_factors known (operands numerator (by simp)).2
    (regular.child (by simp)) above p
  have lower := regular_of_factors known (operands denominator (by simp)).2
    (regular.child (by simp)) below q
  refine ⟨?_, rfl, rfl⟩
  exact regular_node rfl (regularNodes_of_ne (by decide) (by decide) _) (fun _ => rfl)
    (by simpa using ⟨⟨upper, rfl⟩, lower, rfl⟩)

theorem Tidy.replace {test : String → List Expr → Bool}
    (enough : ∀ symbol operands, 2 ≤ operands.length → test symbol operands = true)
    {e target new result : Expr} {address : Address} (tidy : e.Tidy ops)
    (resolved : e.resolve address = .ok target) (targetOperand : target.isMarker = false)
    (newRegular : new.Regular ops test) (newOperand : new.isMarker = false)
    (replaced : e.replace new address = .ok result) : result.Regular ops test := by
  obtain ⟨path, pair⟩ := address
  exact newRegular.replace enough newOperand targetOperand tidy.toRegular (Or.inr tidy.unpaired)
    resolved replaced

theorem AlgebraStep.regular {e result : Expr} {action : Action} (tidy : e.Tidy ["+", "*"])
    (step : e.AlgebraStep action result) : result.Regular ["+", "*"] loose := by
  have enough (symbol : String) (operands : List Expr) (two : 2 ≤ operands.length) :
      loose symbol operands = true := loose_of_several two
  have reaches {path : List Int} {part : Expr} (reached : e.nodeAt path = .ok part) :
      e.resolve (.ofPath path) = .ok part :=
    Attempt.bind_eq_ok.mpr ⟨part, reached, rfl⟩
  cases step with
  | calculation calculated =>
      obtain ⟨target, n, resolved, valued, replaced⟩ := calculateAt_eq_ok calculated
      exact tidy.replace enough resolved (isMarker_of_value valued) (regular_ofNumber n)
        (isOperand_ofNumber n).2 replaced
  | @bothSides path statement side operand _ _ _ _ _ _ reached isEquation inStatement _ inSide
      operated applied replaced =>
      have resolved := reaches reached
      have regular := tidy.resolve resolved
      have root : statement.isMarker = false := by
        simp only [Expr.isEquation, isStatement, Bool.and_eq_true, decide_eq_true_eq] at isEquation
        simp [isMarker, isEquation.1]
      obtain ⟨kind, symbol, children⟩ := statement
      have sideRegular := regular.child inStatement
      obtain ⟨sideKind, sideSymbol, operands⟩ := side
      obtain ⟨bothRegular, bothRoot⟩ :=
        regular_of_onBothSides regular isEquation (sideRegular.child inSide) operated applied
      exact tidy.replace enough resolved root (bothRegular.of_several enough) bothRoot replaced
  | reorder reached exchanged replaced =>
      have resolved := reaches reached
      obtain ⟨swapped, root, swappedRoot⟩ :=
        regular_of_reordered (tidy.resolve resolved) exchanged
      exact tidy.replace enough resolved root (swapped.of_several enough) swappedRoot replaced
  | cancel cancelled =>
      obtain ⟨fraction, reached, cancelled⟩ := Attempt.bind_eq_ok.mp cancelled
      obtain ⟨rest, cancels, replaced⟩ := Attempt.bind_eq_ok.mp cancelled
      have resolved := reaches reached
      obtain ⟨regular, root, restRoot⟩ :=
        regular_of_cancel (by simp) (tidy.resolve resolved) cancels
      exact tidy.replace enough resolved root regular restRoot replaced

end Expr

namespace Rule

open Stepwise.Expr

/-- A rule that matches markers, if at all, as the distributive laws do. -/
structure IsRegular (rule : Rule) : Prop where
  statement : rule.statement.Regular ["+", "*"] several
  left : rule.lhs.MarkerFree ∨
    rule.relation = .equation ∧ (rule.lhs, rule.rhs) ∈ distributiveLaws

theorem IsRegular.applyAt {rule : Rule} {e result : Expr} {address : Address}
    (isRegular : rule.IsRegular) (tidy : e.Tidy ["+", "*"])
    (applied : rule.applyAt e address = .ok result) : result.Regular ["+", "*"] several := by
  have sides := isRegular.statement
  cases relation : rule.relation with
  | equation =>
      simp only [Rule.statement, relation] at sides
      rw [applyAt_equation relation] at applied
      refine (tidy.byEquationAt (Or.inr tidy.unpaired) (fun target _ regular => ?_) applied).1
      rcases isRegular.left with free | ⟨_, isLaw⟩
      · exact keepsRegular_of_plain sides regular (Or.inl free)
      · exact keepsRegular_distributive regular _ isLaw
  | implication =>
      simp only [Rule.statement, relation] at sides
      have free := isRegular.left.resolve_right (by simp [relation])
      rw [applyAt_implication relation] at applied
      split at applied
      · exact (tidy.infer sides free applied).1
      · exact absurd applied (Attempt.stepFault_ne_ok _ _)

theorem isRegular_of_algebra {rs : RuleSet} (loaded : RuleSet.algebra.result = .ok rs) :
    ∀ rule ∈ rs.rules, rule.IsRegular := by
  have checked : (RuleSet.algebra.result.toOption.map fun rs => rs.rules.all fun rule =>
      decide (rule.statement.Regular ["+", "*"] several ∧ (rule.lhs.MarkerFree ∨
        rule.relation = .equation ∧ (rule.lhs, rule.rhs) ∈ distributiveLaws))) = some true := by
    decide +kernel
  rw [loaded] at checked
  simp only [Except.toOption, Option.map_some, Option.some.injEq, List.all_eq_true,
    decide_eq_true_eq] at checked
  exact fun rule member => ⟨(checked rule member).1, (checked rule member).2⟩

end Rule

end Stepwise
