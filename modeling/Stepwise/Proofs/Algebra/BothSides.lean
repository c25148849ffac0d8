import Mathlib.Data.List.Perm.Subperm
import Stepwise.Proofs.Algebra.Suggested
import Stepwise.Proofs.Deduction.Step
import Stepwise.Proofs.Expr.Lens

/-!
What doing the same to both sides of an equation makes of it. Whatever variables occur in the sides
and in the definition of the function, its argument is replaced by the left side on the left and by
the right side on the right, and nothing else is.
-/

namespace Stepwise.Expr

theorem length_mem_of_freshName_mem {taken : List String} {fuel : Nat} {name : String}
    (found : freshName taken fuel name ∈ taken) :
    ∀ length ∈ List.range' name.length (fuel + 1), length ∈ taken.map String.length := by
  induction fuel generalizing name with
  | zero => simpa [freshName] using ⟨name, found, rfl⟩
  | succ fuel ih =>
      rw [freshName] at found
      split at found
      · rename_i here
        have later := ih found
        rw [String.length_append] at later
        rw [List.range'_succ, List.forall_mem_cons]
        exact ⟨List.mem_map_of_mem here, later⟩
      · rename_i absent
        exact absurd found absent

theorem freshVariable_not_mem (e : Expr) : e.freshVariable ∉ e.variableNames := by
  intro found
  have enough :=
    (List.subperm_of_subset List.nodup_range' (length_mem_of_freshName_mem found)).length_le
  rw [List.length_range', List.length_map] at enough
  omega

theorem freshVariable_ne_ellipsis (e : Expr) : e.freshVariable ≠ ellipsis := by
  have kept (taken : List String) (fuel : Nat) (name : String) (marked : 'X' ∈ name.toList) :
      'X' ∈ (freshName taken fuel name).toList := by
    induction fuel generalizing name with
    | zero => exact marked
    | succ fuel ih =>
        rw [freshName]
        split
        · exact ih _ (by simp [marked])
        · exact marked
  intro same
  have inside : 'X' ∈ e.freshVariable.toList := kept _ _ "X" (by decide)
  rw [same] at inside
  exact absurd inside (by decide)

def assign (e : Expr) (name : String) (value : Expr) : Expr :=
  e.subst (Bindings.toSubst [(name, value)])

theorem toSubst_single (name other : String) (value : Expr) :
    Bindings.toSubst [(name, value)] other = if name = other then value else var other := by
  unfold Bindings.toSubst
  rw [Table.find?]
  split
  · rfl
  · rfl

theorem assign_of_not_mem {name : String} {e : Expr} (shaped : e.WellShaped)
    (absent : name ∉ e.variableNames) (value : Expr) : e.assign name value = e := by
  have same : e.subst (Bindings.toSubst [(name, value)]) = e.subst var := by
    refine subst_congr _ _ e fun other occurs => ?_
    rw [toSubst_single, if_neg]
    rintro rfl
    exact absent ((mem_variableNames e _).mpr occurs)
  rw [assign, same, subst_var_self e shaped]

theorem assign_var_self {e : Expr} (shaped : e.WellShaped) (name : String) :
    e.assign name (var name) = e := by
  have same : Bindings.toSubst [(name, var name)] = var := by
    funext other
    rw [toSubst_single]
    split
    · rename_i eq
      rw [eq]
    · rfl
  rw [assign, same, subst_var_self e shaped]

section

variable {lhs rhs body : Expr} {name symbol : String}

theorem bindings?_call (symbol name : String) (operand : Expr) :
    (call symbol [operand]).bindings? (call symbol [var name]) = some [(name, operand)] := by
  obtain ⟨kind, operator, children⟩ := operand
  simp [bindings?, call, var, matchNode, matchEach, Bindings.extend?, Table.find?]

theorem IsOperand.assign {e value : Expr} (operand : e.IsOperand) (name : String)
    (valueOperand : value.IsOperand) : (e.assign name value).IsOperand := by
  have values (other : String) : (Bindings.toSubst [(name, value)] other).IsOperand := by
    rw [toSubst_single]
    split
    · exact valueOperand
    · exact ⟨rfl, rfl⟩
  refine ⟨operand.1.subst _ (fun other => (values other).1) fun other => (values other).2, ?_⟩
  rw [Expr.assign, isMarker_subst _ fun other => (values other).2]
  exact operand.2

theorem call_isOperand (symbol : String) {operand : Expr} (isOperand : operand.IsOperand) :
    (call symbol [operand]).IsOperand := by
  refine ⟨(wellShaped_iff_of_plain rfl).mpr ⟨rfl, ?_⟩, rfl⟩
  simpa using isOperand

theorem byEquation_function (ordinary : name ≠ ellipsis) {operand : Expr}
    (isOperand : operand.IsOperand) (bodyOperand : body.IsOperand) :
    (call symbol [operand]).byEquation (equation (call symbol [var name]) body) =
      .ok (body.assign name operand) := by
  have assigned := bodyOperand.assign name isOperand
  have pattern : (call symbol [var name]).IsOperand := call_isOperand symbol ⟨rfl, rfl⟩
  rw [byEquation_equation]
  by_cases same : call symbol [var name] = call symbol [operand]
  · have isArgument : var name = operand := by simpa [call] using same
    rw [same, ← isArgument, assign_var_self bodyOperand.1]
    exact settle_self _ body 7
  · have found := bindings?_call symbol name operand
    have unbound : Bindings.arity [(name, operand)] = .ok none :=
      arity_of_unbound (by simpa [Table.keys] using Ne.symm ordinary)
    have left := instantiate_of_markerFree (call_isOperand symbol isOperand).1 pattern.1
      (by simp [call, var, markerFree_node]) found
    have right := instantiate_eq_subst [(name, operand)] body bodyOperand.1 (Or.inr unbound)
      assigned.1
    exact settle_of_found 6 found same left right rfl assigned.2

end

section

variable {lhs rhs body : Expr} {name symbol : String}

theorem renameSymbol_applyToBoth (symbol : String) :
    renameSymbol functionSymbol symbol applyToBoth =
      implication (equation (var "A") (var "B"))
        (equation (call symbol [var "A"]) (call symbol [var "B"])) := by
  simp [applyToBoth, implication, equation, call, var, renameSymbol, renameSymbolEach,
    functionSymbol]

theorem infer_applyToBoth (symbol : String) (left : lhs.IsOperand) (right : rhs.IsOperand) :
    (equation lhs rhs).infer (renameSymbol functionSymbol symbol applyToBoth) =
      .ok (equation (call symbol [lhs]) (call symbol [rhs])) := by
  have found : (equation lhs rhs).bindings? (equation (var "A") (var "B")) =
      some [("A", lhs), ("B", rhs)] := by
    obtain ⟨kind, operator, children⟩ := lhs
    obtain ⟨otherKind, otherOperator, others⟩ := rhs
    simp [bindings?, equation, var, matchNode, matchEach, Bindings.extend?, Table.find?]
  have premise : (equation (var "A") (var "B")).instantiate [("A", lhs), ("B", rhs)] =
      .ok (equation lhs rhs) :=
    instantiate_of_markerFree ((statement_wellShaped _ _ _).mpr ⟨left, right⟩) (by decide)
      (by decide) found
  have image : (equation (call symbol [lhs]) (call symbol [rhs])).WellShaped :=
    (statement_wellShaped _ _ _).mpr ⟨call_isOperand symbol left, call_isOperand symbol right⟩
  have conclusion : (equation (call symbol [var "A"]) (call symbol [var "B"])).instantiate
      [("A", lhs), ("B", rhs)] = .ok (equation (call symbol [lhs]) (call symbol [rhs])) := by
    have arguments : ∀ name, (call symbol [var name]).IsOperand :=
      fun name => call_isOperand symbol ⟨rfl, rfl⟩
    have substituted : (equation (call symbol [var "A"]) (call symbol [var "B"])).subst
        (Bindings.toSubst [("A", lhs), ("B", rhs)]) =
          equation (call symbol [lhs]) (call symbol [rhs]) := by
      simp [equation, call, var, subst_node, Bindings.toSubst, Table.find?]
    rw [← substituted] at image ⊢
    exact instantiate_eq_subst _ _ ((statement_wellShaped _ _ _).mpr ⟨arguments "A", arguments "B"⟩)
      (Or.inl (by simp [equation, call, var, markerFree_node])) image
  rw [renameSymbol_applyToBoth]
  exact infer_of_instances rfl found premise conclusion rfl rfl

theorem byEquationAt_sides {fn newLeft newRight : Expr} (first : lhs.byEquation fn = .ok newLeft)
    (second : rhs.byEquation fn = .ok newRight) (root : rhs.isMarker = false)
    (leftRoot : newLeft.isMarker = false) (rightRoot : newRight.isMarker = false) :
    ((equation lhs rhs).byEquationAt fn (.ofPath [0]) >>= fun changed =>
      changed.byEquationAt fn (.ofPath [1])) = .ok (equation newLeft newRight) := by
  have onLeft : (equation lhs rhs).byEquationAt fn (.ofPath [0]) = .ok (equation newLeft rhs) :=
    Attempt.bind_eq_ok.mpr ⟨lhs, rfl, Attempt.bind_eq_ok.mpr ⟨newLeft, first,
      build_two (Or.inr rfl) "=" leftRoot root⟩⟩
  have onRight : (equation newLeft rhs).byEquationAt fn (.ofPath [1]) =
      .ok (equation newLeft newRight) :=
    Attempt.bind_eq_ok.mpr ⟨rhs, rfl, Attempt.bind_eq_ok.mpr ⟨newRight, second,
      build_two (Or.inr rfl) "=" leftRoot rightRoot⟩⟩
  exact Attempt.bind_eq_ok.mpr ⟨_, onLeft, onRight⟩

theorem onBothSides_function (ordinary : name ≠ ellipsis) (left : lhs.IsOperand)
    (right : rhs.IsOperand) (bodyOperand : body.IsOperand) :
    (equation lhs rhs).onBothSides (equation (call symbol [var name]) body) =
      .ok (equation (body.assign name lhs) (body.assign name rhs)) := by
  have inferred := infer_applyToBoth symbol left right
  have first := @byEquation_function body name symbol ordinary lhs left bodyOperand
  have second := @byEquation_function body name symbol ordinary rhs right bodyOperand
  have sides := byEquationAt_sides first second rfl (bodyOperand.assign name left).2
    (bodyOperand.assign name right).2
  exact Attempt.bind_eq_ok.mpr ⟨_, inferred, sides⟩

theorem operationBy_eq_ok {symbol name : String} {value fn : Expr}
    (operated : operationBy symbol value = .ok (fn, name)) :
    value.isMarker = false ∧
      fn = equation (call functionSymbol [var value.freshVariable])
        (binary symbol (var value.freshVariable) value) := by
  obtain ⟨body, built, same⟩ := Attempt.bind_eq_ok.mp operated
  obtain ⟨rfl, -⟩ := Prod.mk.inj (Except.ok.inj same)
  obtain rfl := eq_of_build built
  exact ⟨isMarker_of_build (by decide) built value (by simp), rfl⟩

theorem operationBy_description {symbol description : String} {value fn : Expr}
    (operated : operationBy symbol value = .ok (fn, description)) :
    description = "Apply " ++ symbol ++ value.display ++ " to both side" := by
  obtain ⟨body, _, same⟩ := Attempt.bind_eq_ok.mp operated
  exact (Prod.mk.inj (Except.ok.inj same)).2.symm

theorem exists_sides {statement : Expr} (shaped : statement.WellShaped)
    (isEquation : statement.isEquation = true) :
    ∃ lhs rhs, statement = equation lhs rhs ∧ lhs.IsOperand ∧ rhs.IsOperand := by
  obtain ⟨kind, symbol, children⟩ := statement
  obtain ⟨isStatement, isEqual⟩ := Bool.and_eq_true_iff.mp isEquation
  obtain rfl : kind = .statement := of_decide_eq_true isStatement
  obtain rfl : symbol = "=" := of_decide_eq_true isEqual
  obtain ⟨lhs, rhs, rfl⟩ := List.length_eq_two.mp
    (by simpa [countFault?] using ((wellShaped_iff_of_plain rfl).mp shaped).1)
  obtain ⟨left, right⟩ := (statement_wellShaped _ _ _).mp shaped
  exact ⟨lhs, rhs, rfl, left, right⟩

theorem binary_isOperand (symbol : String) {left right : Expr} (first : left.IsOperand)
    (second : right.IsOperand) : (binary symbol left right).IsOperand := by
  refine ⟨(wellShaped_iff_of_plain rfl).mpr ⟨rfl, ?_⟩, rfl⟩
  simpa using ⟨first, second⟩

/-- The two sides are joined with the value by the operator. -/
theorem onBothSides_operation {operator description : String} {value fn : Expr}
    (left : lhs.IsOperand) (right : rhs.IsOperand) (shaped : value.WellShaped)
    (operated : operationBy operator value = .ok (fn, description)) :
    (equation lhs rhs).onBothSides fn =
      .ok (equation (binary operator lhs value) (binary operator rhs value)) := by
  obtain ⟨notMarker, rfl⟩ := operationBy_eq_ok operated
  have isOperand := binary_isOperand operator (⟨rfl, rfl⟩ : (var value.freshVariable).IsOperand)
    ⟨shaped, notMarker⟩
  have assigned (side : Expr) :
      (binary operator (var value.freshVariable) value).assign value.freshVariable side =
        binary operator side value := by
    have kept := assign_of_not_mem shaped (freshVariable_not_mem value) side
    rw [assign] at kept
    simp [assign, binary, var, subst_node, kept, toSubst_single]
  rw [onBothSides_function (freshVariable_ne_ellipsis value) left right isOperand, assigned,
    assigned]

theorem exists_operationBy (operator : String) {value : Expr} (isOperand : value.IsOperand) :
    ∃ fn description, operationBy operator value = .ok (fn, description) := by
  have built : build .binary operator [var value.freshVariable, value] =
      .ok (binary operator (var value.freshVariable) value) :=
    build_two (Or.inl rfl) operator rfl isOperand.2
  exact ⟨_, _, Attempt.bind_eq_ok.mpr ⟨_, built, rfl⟩⟩

/-- Doing the same to both sides of an equation mixes no names up. Whatever the variables of the
sides and of a value are called, the sides can be joined with the value, and are joined with nothing
else; of a function of a variable there is the body on each side, with that side for the variable.
-/
theorem onBothSides_hygienic (left : lhs.IsOperand) (right : rhs.IsOperand) :
    (∀ operator value, value.IsOperand → ∃ fn description,
      operationBy operator value = .ok (fn, description) ∧
        (equation lhs rhs).onBothSides fn =
          .ok (equation (binary operator lhs value) (binary operator rhs value))) ∧
    ∀ symbol name body, name ≠ ellipsis → body.IsOperand →
      (equation lhs rhs).onBothSides (equation (call symbol [var name]) body) =
        .ok (equation (body.assign name lhs) (body.assign name rhs)) := by
  refine ⟨fun operator value isOperand => ?_, fun symbol name body ordinary isOperand => ?_⟩
  · obtain ⟨fn, description, operated⟩ := exists_operationBy operator isOperand
    exact ⟨fn, description, operated, onBothSides_operation left right isOperand.1 operated⟩
  · exact onBothSides_function ordinary left right isOperand

/-- The sides and the value of `X + A = B * X_` and `X - X_` use every name that is used on the way,
and so does the body of `X(A) = A * X`. -/
theorem onBothSides_hygienic_clashing :
    let lhs := binary "+" (var "X") (var "A")
    let rhs := binary "*" (var "B") (var "X_")
    let value := binary "-" (var "X") (var "X_")
    (∃ fn description, operationBy "/" value = .ok (fn, description) ∧
      (equation lhs rhs).onBothSides fn =
        .ok (equation (binary "/" lhs value) (binary "/" rhs value))) ∧
    (equation lhs rhs).onBothSides
        (equation (call "X" [var "A"]) (binary "*" (var "A") (var "X"))) =
      .ok (equation (binary "*" lhs (var "X")) (binary "*" rhs (var "X"))) := by
  intro lhs rhs value
  have left : lhs.IsOperand := ⟨by decide, rfl⟩
  have right : rhs.IsOperand := ⟨by decide, rfl⟩
  obtain ⟨joined, applied⟩ := onBothSides_hygienic left right
  refine ⟨joined "/" value ⟨by decide, rfl⟩, ?_⟩
  have body : (binary "*" (var "A") (var "X")).IsOperand := ⟨by decide, rfl⟩
  exact applied "X" "A" (binary "*" (var "A") (var "X")) (by decide) body

end

/-! What is suggested for two addresses. -/

section

variable {e result : Expr} {pivot target : Address} {action : Action}

/-- An operand, and the operator that takes it off its side. -/
inductive TakesOff : (side : Expr) → (place : Nat) → (symbol : String) → Prop
  | summand {kind : Kind} {terms : List Expr} {place : Nat}
      (joined : kind = .binary ∨ kind = .train) : TakesOff (node kind "+" terms) place "-"
  | factor {kind : Kind} {terms : List Expr} {place : Nat}
      (joined : kind = .binary ∨ kind = .train) : TakesOff (node kind "*" terms) place "/"
  | subtrahend {left right : Expr} : TakesOff (binary "-" left right) 1 "+"
  | divisor {left right : Expr} : TakesOff (binary "/" left right) 1 "*"

theorem TakesOff.known {side : Expr} {place : Nat} {symbol : String}
    (takes : TakesOff side place symbol) : symbol ∈ ["+", "-", "*", "/"] := by
  cases takes
  all_goals simp

/-- The first address selects an equation and the second one an operand of one of its sides, or
something inside that operand. -/
structure SelectsOperand (e : Expr) (pivot target : Address) (lhs rhs side : Expr) (place : Nat)
    (operand : Expr) : Prop where
  equation : e.nodeAt pivot.path = .ok (equation lhs rhs)
  below : ∃ sideIndex operandIndex rest,
    target.path = pivot.path ++ sideIndex :: operandIndex :: rest ∧
      Index.get? [lhs, rhs] sideIndex = some side ∧
      Index.place? side.children.length operandIndex = some place
  operand : side.children[place]? = some operand

theorem SelectsOperand.side_wellShaped {lhs rhs side operand : Expr} {place : Nat}
    (selects : SelectsOperand e pivot target lhs rhs side place operand) (shaped : e.WellShaped) :
    side.WellShaped := by
  obtain ⟨left, right⟩ := (statement_wellShaped _ _ _).mp (shaped.nodeAt selects.equation)
  obtain ⟨sideIndex, operandIndex, rest, _, present, _⟩ := selects.below
  rcases List.mem_pair.mp (Index.mem_of_get? present) with rfl | rfl
  · exact left.1
  · exact right.1

theorem takesOff_of_inverseOperator? {side : Expr} (shaped : side.WellShaped) {index : Int}
    {place : Nat} {symbol : String} (inverse : side.inverseOperator? index = some symbol)
    (placed : Index.place? side.children.length index = some place) :
    TakesOff side place symbol := by
  obtain ⟨kind, operator, terms⟩ := side
  unfold inverseOperator? at inverse
  split at inverse
  · rename_i joined
    split at inverse
    · rename_i isSum
      obtain rfl := Option.some.inj inverse
      obtain rfl : operator = "+" := isSum
      exact .summand joined
    · split at inverse
      · rename_i isProduct
        obtain rfl := Option.some.inj inverse
        obtain rfl : operator = "*" := isProduct
        exact .factor joined
      · split at inverse
        · rename_i isRight
          obtain ⟨isBinary, rfl⟩ := isRight
          obtain rfl : kind = .binary := isBinary
          obtain ⟨left, right, rfl⟩ := List.length_eq_two.mp
            (by simpa [countFault?] using ((wellShaped_iff_of_plain rfl).mp shaped).1)
          obtain rfl : (1 : Nat) = place := Option.some.inj placed
          split at inverse
          · rename_i isDifference
            obtain rfl := Option.some.inj inverse
            obtain rfl : operator = "-" := isDifference
            exact .subtrahend
          · split at inverse
            · rename_i isQuotient
              obtain rfl := Option.some.inj inverse
              obtain rfl : operator = "/" := isQuotient
              exact .divisor
            · simp at inverse
        · simp at inverse
  · simp at inverse

theorem exists_place_of_get? {side operand : Expr} {index : Int}
    (found : Index.get? side.children index = some operand) :
    ∃ place, Index.place? side.children.length index = some place ∧
      side.children[place]? = some operand := by
  unfold Index.get? at found
  split at found
  · rename_i place placed
    exact ⟨place, placed, found⟩
  · simp at found

theorem BothSides.joins (shaped : e.WellShaped) (step : e.BothSides pivot target action result) :
    ∃ lhs rhs side place operand symbol, SelectsOperand e pivot target lhs rhs side place operand ∧
      TakesOff side place symbol ∧
      action = .step ("Apply " ++ symbol ++ operand.display ++ " to both side") ∧
      e.replace (equation (binary symbol lhs operand) (binary symbol rhs operand))
        (.ofPath pivot.path) = .ok result := by
  obtain ⟨parts, reached, isEquation, present, inverse, selected, operated, applied, replaced⟩ :=
    step
  obtain ⟨lhs, rhs, rfl, left, right⟩ := exists_sides (shaped.nodeAt reached) isEquation
  rename_i side operand fn both sideIndex operandIndex rest symbol name
  obtain ⟨place, placed, stands⟩ := exists_place_of_get? selected
  have selects : SelectsOperand e pivot target lhs rhs side place operand :=
    ⟨reached, ⟨sideIndex, operandIndex, rest, parts, present, placed⟩, stands⟩
  have sideShaped := selects.side_wellShaped shaped
  have operandShaped : operand.WellShaped := by
    obtain ⟨kind, operator, terms⟩ := side
    exact sideShaped.child (List.mem_of_getElem? stands)
  rw [onBothSides_operation left right operandShaped operated] at applied
  obtain rfl := Except.ok.inj applied
  exact ⟨lhs, rhs, side, place, operand, symbol, selects,
    takesOff_of_inverseOperator? sideShaped inverse placed,
    congrArg Action.step (operationBy_description operated), replaced⟩

end

end Stepwise.Expr
