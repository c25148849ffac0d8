import Stepwise.Proofs.Algebra.BothSides
import Stepwise.Proofs.NormalForm.Simplify
import Stepwise.Proofs.Rule.Loading
import Stepwise.Proofs.Worksheet.Saturation

/-!
Whatever is suggested for a well shaped tree is well shaped.
-/

namespace Stepwise

namespace Expr

variable {e : Expr}

theorem wellShaped_of_onBothSides (shaped : e.WellShaped) (isEquation : e.isEquation = true)
    {symbol name : String} {value fn both : Expr} (valueShaped : value.WellShaped)
    (operated : operationBy symbol value = .ok (fn, name)) (applied : e.onBothSides fn = .ok both) :
    both.WellShaped := by
  obtain ⟨lhs, rhs, rfl, left, right⟩ := exists_sides shaped isEquation
  rw [onBothSides_operation left right valueShaped operated] at applied
  obtain rfl := Except.ok.inj applied
  have isOperand : value.IsOperand := ⟨valueShaped, (operationBy_eq_ok operated).1⟩
  exact (statement_wellShaped _ _ _).mpr
    ⟨binary_isOperand symbol left isOperand, binary_isOperand symbol right isOperand⟩

theorem exchanged_perm (children : List Expr) (i j : Nat) :
    (exchanged children i j).Perm children := by
  unfold exchanged
  split
  · rename_i a b first second
    obtain ⟨inside, rfl⟩ := List.getElem?_eq_some_iff.mp first
    obtain ⟨otherInside, rfl⟩ := List.getElem?_eq_some_iff.mp second
    exact List.set_set_perm inside otherInside
  · exact List.Perm.refl _

theorem reordered?_eq_ok {parent swapped : Expr} {i j : Int}
    (exchanged : parent.reordered? i j = .ok (some swapped)) :
    ∃ children, parent.withChildren children = .ok swapped ∧ children.Perm parent.children ∧
      parent.symbol ∈ commutativeSymbols ∧ (parent.kind = .train ∨ parent.kind = .binary) := by
  have mapped {attempt : Attempt Expr} (same : attempt.map some = .ok (some swapped)) :
      attempt = .ok swapped := by
    cases attempt with
    | ok value => rw [Option.some.inj (Except.ok.inj same)]
    | error fault => exact nomatch same
  unfold reordered? at exchanged
  split at exchanged
  · rename_i commutes
    split at exchanged
    · rename_i isTrain
      have swaps := mapped exchanged
      rw [swapTerms, if_pos isTrain] at swaps
      split at swaps
      · exact ⟨_, swaps, exchanged_perm _ _ _, commutes, Or.inl (of_decide_eq_true isTrain)⟩
      · exact absurd swaps (Attempt.stepFault_ne_ok _ _)
    · split at exchanged
      · rename_i isBinary
        exact ⟨_, mapped exchanged, List.reverse_perm _, commutes, Or.inr isBinary⟩
      · simp at exchanged
  · simp at exchanged

theorem asTrain_eq (symbol : String) (e : Expr) :
    asTrain symbol e = train symbol (asTrain symbol e).children := by
  unfold asTrain
  split <;> rfl

theorem asTrain_wellShaped (symbol : String) (operand : e.IsOperand) :
    (asTrain symbol e).WellShaped := by
  obtain ⟨kind, name, children⟩ := e
  unfold asTrain
  split
  · rename_i isGroup
    simp only [Bool.and_eq_true, Bool.or_eq_true, kind_node] at isGroup
    obtain ⟨count, alone⟩ :=
      (shapeFault?_eq_none_iff _ _).mp ((wellShaped_node _ _ _).mp operand.1).1
    rw [children_node, train, wellShaped_node, shapeFault?_eq_none_iff]
    rcases isGroup.2.imp of_decide_eq_true of_decide_eq_true with rfl | rfl
    · have two : children.length = 2 := by simpa [countFault?] using count
      refine ⟨⟨by simp [countFault?, two], ?_⟩, fun child member => operand.1.child member⟩
      intro child member marks
      simpa using (alone child member marks).1
    · exact ⟨⟨count, alone⟩, fun child member => operand.1.child member⟩
  · simp [train, wellShaped_node, shapeFault?, countFault?, operand.1]

theorem set_wellShaped {symbol : String} {terms : List Expr}
    (shaped : (train symbol terms).WellShaped) (place : Nat) {new : Expr}
    (operand : new.IsOperand) : (train symbol (terms.set place new)).WellShaped := by
  obtain ⟨count, alone⟩ := (shapeFault?_eq_none_iff _ _).mp ((wellShaped_node _ _ _).mp shaped).1
  rw [train, wellShaped_node, shapeFault?_eq_none_iff, List.length_set]
  refine ⟨⟨count, ?_⟩, ?_⟩
  · intro term member marks
    rcases List.mem_or_eq_of_mem_set member with inTerms | rfl
    · exact alone term inTerms marks
    · simp [operand.2] at marks
  · intro term member
    rcases List.mem_or_eq_of_mem_set member with inTerms | rfl
    · exact shaped.child inTerms
    · exact operand.1

theorem IsOperand.set_factor {part : Expr} (operand : part.IsOperand) (place : Nat) {new : Expr}
    (newOperand : new.IsOperand) :
    (train "*" ((asTrain "*" part).children.set place new)).IsOperand := by
  refine ⟨set_wellShaped ?_ place newOperand, rfl⟩
  rw [← asTrain_eq]
  exact asTrain_wellShaped "*" operand

theorem cancel_eq_ok {fraction result : Expr} {i j : Int}
    (cancelled : fraction.cancel i j = .ok result) :
    ∃ numerator denominator top bottom a b p q,
      fraction = binary "/" numerator denominator ∧
      (asTrain "*" numerator).children[i.toNat]? = some top ∧
      (asTrain "*" denominator).children[j.toNat]? = some bottom ∧
      top.numeral? = some a ∧ bottom.numeral? = some b ∧ Expr.cancelled a b = .ok (p, q) ∧
      result = binary "/"
        (train "*" ((asTrain "*" numerator).children.set i.toNat (ofNumber p)))
        (train "*" ((asTrain "*" denominator).children.set j.toNat (ofNumber q))) := by
  have forward {xs : List Expr} {index : Int} {x : Expr}
      (found : Index.forward? xs index = some x) : xs[index.toNat]? = some x := by
    unfold Index.forward? at found
    split at found
    · exact found
    · simp at found
  unfold cancel at cancelled
  split at cancelled
  · rename_i numerator denominator
    dsimp only at cancelled
    split at cancelled
    · rename_i top bottom above below
      split at cancelled
      · rename_i a b readTop readBottom
        obtain ⟨⟨p, q⟩, divided, same⟩ := Attempt.bind_eq_ok.mp cancelled
        exact ⟨numerator, denominator, top, bottom, a, b, p, q, rfl, forward above, forward below,
          readTop, readBottom, divided, (Except.ok.inj same).symm⟩
      · exact absurd cancelled (Attempt.stepFault_ne_ok _ _)
    · exact absurd cancelled (Attempt.stepFault_ne_ok _ _)
  · exact absurd cancelled (Attempt.stepFault_ne_ok _ _)

theorem wellShaped_of_cancel {fraction result : Expr} (shaped : fraction.WellShaped) {i j : Int}
    (cancelled : fraction.cancel i j = .ok result) : result.WellShaped := by
  obtain ⟨numerator, denominator, _, _, _, _, p, q, rfl, _, _, _, _, _, rfl⟩ :=
    cancel_eq_ok cancelled
  have parts := ((wellShaped_iff_of_plain rfl).mp shaped).2
  refine (wellShaped_iff_of_plain rfl).mpr ⟨rfl, ?_⟩
  have above := (parts numerator (by simp)).set_factor i.toNat (isOperand_ofNumber p)
  have below := (parts denominator (by simp)).set_factor j.toNat (isOperand_ofNumber q)
  simp [above, below]

theorem AlgebraStep.wellShaped {action : Action} {result : Expr} (shaped : e.WellShaped)
    (step : e.AlgebraStep action result) : result.WellShaped := by
  have reaches {path : List Int} {part : Expr} (reached : e.nodeAt path = .ok part) :
      part.WellShaped :=
    shaped.resolve (Attempt.bind_eq_ok.mpr ⟨part, reached, rfl⟩ : e.resolve ⟨path, none⟩ = _)
  cases step with
  | @calculation address _ _ calculated =>
      obtain ⟨path, pair⟩ := address
      obtain ⟨target, n, _, _, replaced⟩ := calculateAt_eq_ok calculated
      exact shaped.replace (isOperand_ofNumber n).1 replaced
  | @bothSides path statement side operand _ _ _ _ _ _ reached isEquation inStatement _ inSide
      operated applied replaced =>
      have statementShaped := reaches reached
      obtain ⟨kind, symbol, children⟩ := statement
      have sideShaped := statementShaped.child inStatement
      obtain ⟨sideKind, sideSymbol, operands⟩ := side
      exact shaped.replace (wellShaped_of_onBothSides statementShaped isEquation
        (sideShaped.child inSide) operated applied) replaced
  | @reorder path parent _ _ _ _ reached swapped replaced =>
      have parentShaped := reaches reached
      obtain ⟨children, built, same, _⟩ := reordered?_eq_ok swapped
      obtain ⟨kind, symbol, operands⟩ := parent
      exact shaped.replace (wellShaped_of_build built fun child member =>
        parentShaped.child (same.mem_iff.mp member)) replaced
  | cancel cancelled =>
      obtain ⟨fraction, reached, cancelled⟩ := Attempt.bind_eq_ok.mp cancelled
      obtain ⟨rest, cancels, replaced⟩ := Attempt.bind_eq_ok.mp cancelled
      exact shaped.replace (wellShaped_of_cancel (reaches reached) cancels) replaced

end Expr

namespace Settings

theorem Suggested.wellShaped {settings : Settings} {e result : Expr} {target : Address}
    {action : Action} (shaped : e.WellShaped) (keeps : settings.KeepsShape)
    (labels : ∀ pair ∈ settings.labels, pair.2.WellShaped)
    (suggested : settings.Suggested e target action result) : result.WellShaped := by
  cases suggested with
  | substitution member turned => exact shaped.byEquationAt (labels _ member) turned
  | rule known applied => exact Rule.wellShaped_of_applyAt (keeps.rules _ _ known) shaped applied
  | algebra step => exact step.wellShaped shaped

end Settings

end Stepwise
