import Stepwise.Proofs.NormalForm.Idempotent

/-!
Trees in which a train may have a single term, as long as it is no binary node and no train itself.
Cancelling factors leaves such trees. Their normal form has no such trains and is its own normal
form.
-/

namespace Stepwise.Expr

def isJoined (e : Expr) : Bool := e.kind = .binary || e.kind = .train

def loose (_ : String) (operands : List Expr) : Bool :=
  2 ≤ operands.length || operands.all fun operand => !operand.isJoined

theorem loose_of_several {symbol : String} {operands : List Expr}
    (enough : 2 ≤ operands.length) : loose symbol operands = true := by
  simp [loose, enough]

theorem loose_cases {symbol : String} {operands : List Expr}
    (holds : loose symbol operands = true) :
    2 ≤ operands.length ∨ ∀ operand ∈ operands, operand.isJoined = false := by
  simpa [loose] using holds

theorem loose_map {f : Expr → Expr} {symbol : String} {operands : List Expr}
    (same : ∀ operand ∈ operands, (f operand).isJoined = operand.isJoined)
    (holds : loose symbol operands = true) : loose symbol (operands.map f) = true := by
  rcases loose_cases holds with enough | alone
  · exact loose_of_several (by simpa using enough)
  · have none : ∀ operand ∈ operands, (f operand).isJoined = false :=
      fun operand member => (same operand member).trans (alone operand member)
    simpa [loose] using Or.inr none

theorem isJoined_of_isGroupOf {e : Expr} {symbol : String} (isGroup : e.isGroupOf symbol = true) :
    e.isJoined = true := by
  obtain ⟨kind, name, children⟩ := e
  rcases ((isGroupOf_iff _ _ _ _).mp isGroup).1 with rfl | rfl
  all_goals rfl

theorem isJoined_bottomUp {step : Expr → Expr} (same : ∀ e : Expr, (step e).isJoined = e.isJoined)
    (e : Expr) : (bottomUp step e).isJoined = e.isJoined := by
  obtain ⟨kind, symbol, children⟩ := e
  rw [bottomUp_node, same]
  rfl

theorem isJoined_subToNegativeNode (symbols : SubtractionSymbols) (e : Expr) :
    (subToNegativeNode symbols e).isJoined = e.isJoined := by
  rcases subToNegativeNode_cases symbols e with ⟨same, _⟩ | ⟨left, right, rfl, turned⟩
  · rw [same]
  · rw [turned]
    rfl

theorem isJoined_flattenNode (ops : List String) (e : Expr) :
    (flattenNode ops e).isJoined = e.isJoined := by
  unfold flattenNode
  split
  · rename_i merges
    simp only [Bool.and_eq_true, decide_eq_true_eq] at merges
    exact (isJoined_of_isGroupOf merges.1.2).symm
  · rfl

theorem isJoined_shortenNode (ops : List String) (e : Expr) :
    (shortenNode ops e).isJoined = e.isJoined := by
  unfold shortenNode
  split
  · split
    · rfl
    · rfl
  · rfl

theorem subToNegative_loose (symbols : SubtractionSymbols) {e : Expr} (shaped : e.WellShaped)
    (groups : e.Groups loose) : (subToNegative symbols e).Groups loose := by
  refine (isPass_subToNegativeNode symbols).keepsGroups ?_ ?_ shaped groups
  · exact fun _ _ _ holds =>
      loose_map (fun child _ => isJoined_bottomUp (isJoined_subToNegativeNode symbols) child) holds
  · intro e _ groups
    rcases subToNegativeNode_cases symbols e with ⟨same, _⟩ | ⟨left, right, rfl, turned⟩
    · rwa [same]
    · have negated : (unary symbols.negative right).Groups loose :=
        groups_of_not_group (by decide) (by simpa using groups.child (by simp [binary]))
      rw [turned]
      exact groups_two rfl (groups.child (by simp [binary])) negated

theorem flatten_loose {ops : List String} {e : Expr} (shaped : e.WellShaped)
    (groups : e.Groups loose) : (e.flatten ops).Groups loose := by
  refine (isPass_flattenNode ops).keepsGroups ?_ ?_ shaped groups
  · exact fun _ _ _ holds =>
      loose_map (fun child _ => isJoined_bottomUp (isJoined_flattenNode ops) child) holds
  · intro e inShape groups
    refine groups_flattenNode (fun child => groups.child) ?_ fun isGroup _ => groups.here isGroup
    intro _ isGroup
    rcases loose_cases (groups.here isGroup) with enough | alone
    · exact loose_of_several (enough.trans (length_le_flatMap_terms inShape isGroup))
    · -- An only term is no group, so there is nothing to absorb.
      have single : ∀ child ∈ e.children, terms e.symbol child = [child] := by
        intro child member
        refine terms_of_other (Bool.eq_false_iff.mpr fun nested => ?_)
        exact absurd (isJoined_of_isGroupOf nested) (by simp [alone child member])
      rw [List.flatMap_congr single, List.flatMap_singleton']
      exact groups.here isGroup

theorem shorten_loose {ops : List String} {e : Expr} (shaped : e.WellShaped)
    (groups : e.Groups loose) : (e.shorten ops).Groups loose :=
  shorten_keepsGroups (fun _ _ _ holds =>
    loose_map (fun child _ => isJoined_bottomUp (isJoined_shortenNode ops) child) holds)
    shaped groups

/-! Unwrapping. -/

theorem unwrapNode_cases (e : Expr) :
    (∃ symbol term, e = train symbol [term] ∧ e.isVariadicTrain = false ∧ unwrapNode e = term) ∨
      (unwrapNode e = e ∧ (e.kind = .train → e.children.length = 1 → e.isVariadicTrain = true)) := by
  unfold unwrapNode
  split
  · rename_i symbol term
    split
    · rename_i variadic
      exact Or.inr ⟨rfl, fun _ _ => variadic⟩
    · rename_i plain
      exact Or.inl ⟨symbol, term, rfl, by simpa using plain, rfl⟩
  · rename_i notSingle
    refine Or.inr ⟨rfl, ?_⟩
    obtain ⟨kind, symbol, children⟩ := e
    rintro rfl one
    obtain ⟨term, rfl⟩ := List.length_eq_one_iff.mp one
    exact absurd rfl (notSingle symbol term)

theorem unwrap_of {P Q : Expr → Prop}
    (parts : ∀ kind symbol children, P (node kind symbol children) → ∀ child ∈ children, P child)
    (here : ∀ kind symbol children, P (node kind symbol children) →
      (∀ child ∈ children, Q child.unwrap) →
        (kind = .train → children.length = 1 →
          (node kind symbol (children.map unwrap)).isVariadicTrain = true) →
          Q (node kind symbol (children.map unwrap))) {e : Expr} (holds : P e) : Q e.unwrap := by
  induction e using Expr.induction with
  | node kind symbol children each =>
      have below : ∀ child ∈ children, Q child.unwrap :=
        fun child member => each child member (parts _ _ _ holds child member)
      have whole : (node kind symbol children).unwrap =
          unwrapNode (node kind symbol (children.map unwrap)) := bottomUp_node _ _ _ _
      rw [whole]
      rcases unwrapNode_cases (node kind symbol (children.map unwrap)) with
        ⟨name, term, single, _, turned⟩ | ⟨same, stays⟩
      · obtain ⟨child, member, rfl⟩ : ∃ child ∈ children, child.unwrap = term := by
          have inside : term ∈ children.map unwrap := by simp [(node.inj single).2.2]
          exact List.mem_map.mp inside
        rw [turned]
        exact below child member
      · rw [same]
        refine here kind symbol children holds below fun isTrain one => ?_
        exact stays isTrain (by simpa using one)

theorem unwrap_several {e : Expr} (shaped : e.WellShaped) : e.unwrap.Groups several := by
  refine unwrap_of (P := WellShaped) (fun _ _ _ shaped _ => shaped.child) ?_ shaped
  intro kind symbol children shaped below stays
  refine (groups_iff _).mpr ⟨fun isGroup => ?_, by simpa using below⟩
  obtain ⟨groups, _, plain⟩ := (isGroupOf_iff _ _ _ _).mp isGroup
  have count := countFault?_of_wellShaped (isPass_unwrapNode.inside shaped)
  rw [children_node, several_map]
  rcases groups with rfl | rfl
  · have two : children.length = 2 := by simpa [countFault?] using count
    simp [several, two]
  · have nonempty : children.length ≠ 0 := by
      intro empty
      simp [countFault?, empty] at count
    have notSingle : children.length ≠ 1 := by
      intro one
      simpa [isVariadicTrain, plain] using stays rfl one
    simp only [several, decide_eq_true_eq]
    omega

theorem isJoined_unwrap {e : Expr} (other : e.isJoined = false) : e.unwrap.isJoined = false := by
  obtain ⟨kind, symbol, children⟩ := e
  rw [unwrap, bottomUp_node]
  rcases unwrapNode_cases (node kind symbol (children.map (bottomUp unwrapNode))) with
    ⟨name, term, single, _, _⟩ | ⟨same, _⟩
  · obtain ⟨rfl, _⟩ := node.inj single
    exact absurd other (by simp [isJoined])
  · rw [same]
    exact other

theorem isGroupOf_of_unwrap {e : Expr} {symbol : String} (shaped : e.WellShaped)
    (groups : e.Groups loose) (isGroup : e.unwrap.isGroupOf symbol = true) :
    e.isGroupOf symbol = true := by
  obtain ⟨kind, name, children⟩ := e
  have whole : (node kind name children).unwrap =
      unwrapNode (node kind name (children.map unwrap)) := bottomUp_node _ _ _ _
  have seen := isPass_unwrapNode.isGroupOf_inside shaped
  rw [whole] at isGroup
  rcases unwrapNode_cases (node kind name (children.map unwrap)) with
    ⟨other, term, single, plain, turned⟩ | ⟨same, _⟩
  · obtain ⟨rfl, rfl, terms⟩ := node.inj single
    obtain ⟨child, rfl, rfl⟩ := List.map_eq_singleton_iff.mp terms
    have wasGroup : (node .train name [child]).isGroupOf name = true := by
      rw [← seen name]
      change (node .train name ([child].map unwrap)).isGroupOf name = true
      simpa [isGroupOf] using plain
    have alone := (loose_cases (groups.here wasGroup)).resolve_left (by simp)
    rw [turned] at isGroup
    exact absurd (isJoined_of_isGroupOf isGroup) (by simp [isJoined_unwrap (alone child (by simp))])
  · rw [same] at isGroup
    exact (seen symbol).symm.trans isGroup

theorem unwrap_unnested {ops : List String} {e : Expr} (shaped : e.WellShaped)
    (groups : e.Groups loose) (flat : e.Groups (unnested ops)) :
    e.unwrap.Groups (unnested ops) := by
  refine unwrap_of (P := fun e => e.WellShaped ∧ e.Groups loose ∧ e.Groups (unnested ops))
    ?_ ?_ ⟨shaped, groups, flat⟩
  · rintro kind symbol children ⟨shaped, groups, flat⟩ child member
    exact ⟨shaped.child member, groups.child member, flat.child member⟩
  · rintro kind symbol children ⟨shaped, groups, flat⟩ below _
    refine (groups_iff _).mpr ⟨fun isGroup => ?_, by simpa using below⟩
    have isGroupBefore := (isPass_unwrapNode.isGroupOf_inside shaped symbol).symm.trans isGroup
    have before := flat.here isGroupBefore
    by_cases known : symbol ∈ ops
    · rw [symbol_node, children_node] at *
      rw [unnested_iff known] at before ⊢
      simp only [List.mem_map]
      rintro _ ⟨child, member, rfl⟩
      rw [Bool.eq_false_iff]
      intro nested
      have old := isGroupOf_of_unwrap (shaped.child member) (groups.child member) nested
      exact absurd (before child member) (by simp [old])
    · simp [unnested, known]

theorem unwrap_short {ops : List String} {e : Expr} (short : e.Short ops) : e.unwrap.Short ops := by
  refine unwrap_of (P := Short ops) ?_ ?_ short
  · exact fun kind symbol children short child => ((short_node _ _ _ _).mp short).2 child
  · intro kind symbol children short below _
    refine (short_node _ _ _ _).mpr ⟨?_, by simpa using below⟩
    simpa using ((short_node _ _ _ _).mp short).1

theorem regroup_isGrouped_of_loose {ctx : Context} (off : simplifyFlag ∉ ctx.flags) {e : Expr}
    (shaped : e.WellShaped) (groups : e.Groups loose) : IsGrouped ctx (regroup ctx e) := by
  have flatShaped : (e.flatten ctx.assocOps).WellShaped :=
    ((isPass_flattenNode ctx.assocOps).bottomUp shaped).1
  have shortShaped := ((isPass_shortenNode ctx.binaryOps).bottomUp flatShaped).1
  have kept : ((e.flatten ctx.assocOps).shorten ctx.binaryOps).Groups loose :=
    shorten_loose flatShaped (flatten_loose shaped groups)
  have flat : ((e.flatten ctx.assocOps).shorten ctx.binaryOps).Groups (unnested ctx.assocOps) :=
    shorten_unnested flatShaped (flatten_unnested shaped)
  unfold regroup
  simp only [if_neg off]
  exact ⟨unwrap_several shortShaped, fun on => absurd on off,
    unwrap_unnested shortShaped kept flat, unwrap_short (shorten_short _ _)⟩

theorem negativeToSub_several (symbols : SubtractionSymbols) {e : Expr} (shaped : e.WellShaped)
    (groups : e.Groups several) : (negativeToSub symbols e).Groups several := by
  refine (isPass_negativeToSubNode symbols).keepsGroups ?_ ?_ shaped groups
  · exact fun symbol children _ enough => (several_map _ symbol children).trans enough
  · intro e _ groups
    rcases negativeToSubNode_cases symbols e with same | ⟨left, operand, rfl, turned⟩
    · rwa [same]
    · have negated : (unary symbols.negative operand).Groups several :=
        groups.child (by simp [binary])
      rw [turned]
      exact groups_two rfl (groups.child (by simp [binary])) (negated.child (by simp [unary]))

theorem negativeToSub_short (symbols : SubtractionSymbols) {ops : List String} {e : Expr}
    (short : e.Short ops) : (negativeToSub symbols e).Short ops := by
  induction e using Expr.induction with
  | node kind symbol children each =>
      obtain ⟨here, inner⟩ := (short_node _ _ _ _).mp short
      have below : ∀ child ∈ children.map (negativeToSub symbols), child.Short ops := by
        simp only [List.mem_map]
        rintro _ ⟨child, member, rfl⟩
        exact each child member (inner child member)
      have whole : negativeToSub symbols (node kind symbol children) =
          negativeToSubNode symbols (node kind symbol (children.map (negativeToSub symbols))) :=
        bottomUp_node _ _ _ _
      have kept : (node kind symbol (children.map (negativeToSub symbols))).Short ops :=
        (short_node _ _ _ _).mpr ⟨by simpa using here, below⟩
      rw [whole]
      rcases negativeToSubNode_cases symbols
        (node kind symbol (children.map (negativeToSub symbols))) with
        same | ⟨left, operand, sum, turned⟩
      · rwa [same]
      · obtain ⟨rfl, rfl, parts⟩ := node.inj sum
        have negated := below (unary symbols.negative operand) (by simp [parts])
        rw [turned]
        refine (short_node _ _ _ _).mpr ⟨by simp, ?_⟩
        have first := below left (by simp [parts])
        have second := ((short_node _ _ _ _).mp negated).2 operand (by simp)
        simp [first, second]

section

variable {ctx : Context} {e : Expr}

/-- What the normal form of a loose tree is like. -/
theorem normalize_grouped (off : simplifyFlag ∉ ctx.flags) (shaped : e.WellShaped)
    (groups : e.Groups loose) :
    (normalize ctx e).Groups several ∧ (normalize ctx e).Short ctx.binaryOps := by
  unfold normalize
  split
  · have negated := (isPass_subToNegativeNode .usual).bottomUp shaped
    have grouped := regroup_isGrouped_of_loose off negated.1 (subToNegative_loose .usual shaped groups)
    exact ⟨negativeToSub_several .usual (regroup_wellShaped ctx negated.1) grouped.several,
      negativeToSub_short .usual grouped.short⟩
  · have grouped := regroup_isGrouped_of_loose off shaped groups
    exact ⟨grouped.several, grouped.short⟩

theorem normalize_normalize (noMinus : "-" ∉ ctx.assocOps) (off : simplifyFlag ∉ ctx.flags)
    (shaped : e.WellShaped) (formed : e.Formed (trainsOver ctx.assocOps)) (groups : e.Groups loose) :
    normalize ctx (normalize ctx e) = normalize ctx e := by
  unfold normalize
  split
  · have negated := (isPass_subToNegativeNode .usual).bottomUp shaped
    have grouped := regroup_isGrouped_of_loose off negated.1 (subToNegative_loose .usual shaped groups)
    have regrouped := regroup_formed noMinus (subToNegative_formed formed)
    rw [subToNegative_negativeToSub .usual (by decide), subToNegative_of_formed regrouped]
    exact congrArg (negativeToSub .usual) grouped.regroup_eq
  · exact (regroup_isGrouped_of_loose off shaped groups).regroup_eq

end

end Stepwise.Expr
