import Stepwise.Proofs.NormalForm.Groups

/-!
The normal form of a normal form is itself. What the passes between the two on subtraction yield has
no subtraction, and every one of them leaves it as it is.
-/

namespace Stepwise.Expr

/-- Trains stand for the given operators only, and each is variadic or has two terms or more. -/
def ProperTrains (ops : List String) (e : Expr) : Prop :=
  e.allNodes (fun kind symbol children => kind = .train → symbol ∈ ops ∧
    ((node kind symbol children).isVariadicTrain = true ∨ 2 ≤ children.length)) = true

instance (ops : List String) (e : Expr) : Decidable (e.ProperTrains ops) :=
  inferInstanceAs (Decidable (_ = true))

theorem properTrains_node (ops : List String) (kind : Kind) (symbol : String)
    (children : List Expr) :
    (node kind symbol children).ProperTrains ops ↔
      (kind = .train → symbol ∈ ops ∧
        ((node kind symbol children).isVariadicTrain = true ∨ 2 ≤ children.length)) ∧
        ∀ child ∈ children, child.ProperTrains ops := by
  rw [ProperTrains, allNodes_node, decide_eq_true_iff]
  rfl

theorem ProperTrains.formed {ops : List String} {e : Expr} (proper : e.ProperTrains ops)
    (shaped : e.WellShaped) : e.Formed (trainsOver ops) := by
  refine shaped.formed proper ?_
  intro kind symbol children here
  by_cases isTrain : kind = .train
  · simp [trainsOver, (of_decide_eq_true here isTrain).1]
  · simp [trainsOver, isTrain]

theorem ProperTrains.several {ops : List String} {e : Expr} (proper : e.ProperTrains ops)
    (shaped : e.WellShaped) : e.Groups several := by
  induction e using Expr.induction with
  | node kind symbol children each =>
      obtain ⟨here, inner⟩ := (properTrains_node _ _ _ _).mp proper
      refine (groups_iff _).mpr ⟨fun isGroup => ?_,
        fun child member => each child member (inner child member) (shaped.child member)⟩
      obtain ⟨groups, _, plain⟩ := (isGroupOf_iff _ _ _ _).mp isGroup
      rcases groups with rfl | rfl
      · have count := ((wellShaped_iff_of_plain plain).mp shaped).1
        have two : children.length = 2 := by simpa [countFault?] using count
        simp [Expr.several, two]
      · exact decide_eq_true ((here rfl).2.resolve_left (by simp [isVariadicTrain, plain]))

theorem bottomUp_eq_self {step : Expr → Expr} {test : Kind → String → List Expr → Bool}
    (fixes : ∀ e : Expr, e.allNodes test = true → step e = e) {e : Expr}
    (holds : e.allNodes test = true) : bottomUp step e = e := by
  induction e using Expr.induction with
  | node kind symbol children each =>
      have inner := ((allNodes_node _ _ _ _).mp holds).2
      have same : children.map (bottomUp step) = children := by
        rw [List.map_congr_left fun child member => each child member (inner child member),
          List.map_id']
      rw [bottomUp_node, same, fixes _ holds]

structure IsGrouped (ctx : Context) (e : Expr) : Prop where
  several : e.Groups several
  nontrivial : simplifyFlag ∈ ctx.flags → e.Groups nontrivial
  unnested : e.Groups (unnested ctx.assocOps)
  short : e.Short ctx.binaryOps

theorem regroup_isGrouped (ctx : Context) {e : Expr} (shaped : e.WellShaped)
    (groups : e.Groups several) : IsGrouped ctx (regroup ctx e) := by
  obtain ⟨simplified, same, simplifiedShaped, simplifiedGroups, nontrivial⟩ :
      ∃ simplified, (if simplifyFlag ∈ ctx.flags then e.simplify else e) = simplified ∧
        simplified.WellShaped ∧ simplified.Groups several ∧
        (simplifyFlag ∈ ctx.flags → simplified.Groups nontrivial) := by
    refine ⟨_, rfl, ?_⟩
    split
    · exact ⟨(isPass_simplifyNode.bottomUp shaped).1, simplify_several shaped groups,
        fun _ => simplify_nontrivial shaped⟩
    · rename_i off
      exact ⟨shaped, groups, fun on => absurd on off⟩
  have flatShaped := ((isPass_flattenNode ctx.assocOps).bottomUp simplifiedShaped).1
  have shortGroups : ((simplified.flatten ctx.assocOps).shorten ctx.binaryOps).Groups Expr.several :=
    shorten_several flatShaped (flatten_several simplifiedShaped simplifiedGroups)
  have unwrapped : ((simplified.flatten ctx.assocOps).shorten ctx.binaryOps).unwrap =
      (simplified.flatten ctx.assocOps).shorten ctx.binaryOps :=
    bottomUp_eq_self (fun _ => unwrapNode_of_several) shortGroups
  unfold regroup
  simp only [same]
  rw [unwrapped]
  exact ⟨shortGroups,
    fun on => shorten_nontrivial flatShaped (flatten_nontrivial simplifiedShaped (nontrivial on)),
    shorten_unnested flatShaped (flatten_unnested simplifiedShaped), shorten_short _ _⟩

theorem IsGrouped.regroup_eq {ctx : Context} {e : Expr} (grouped : IsGrouped ctx e) :
    regroup ctx e = e := by
  have simplified : (if simplifyFlag ∈ ctx.flags then e.simplify else e) = e := by
    split
    · rename_i on
      exact bottomUp_eq_self (fun _ => simplifyNode_of_nontrivial) (grouped.nontrivial on)
    · rfl
  have flattened : e.flatten ctx.assocOps = e :=
    bottomUp_eq_self (fun _ => flattenNode_of_unnested) grouped.unnested
  have shortened : e.shorten ctx.binaryOps = e :=
    bottomUp_eq_self (fun _ => shortenNode_of_short) grouped.short
  have unwrapped : e.unwrap = e :=
    bottomUp_eq_self (fun _ => unwrapNode_of_several) grouped.several
  unfold regroup
  simp only [simplified, flattened, shortened, unwrapped]

def summedNodes (ops : List String) (kind : Kind) (symbol : String) : Bool :=
  trainsOver ops kind symbol && !(kind = .binary && symbol = "-")

theorem subToNegative_formed {ops : List String} {e : Expr} (formed : e.Formed (trainsOver ops)) :
    (subToNegative .usual e).Formed (summedNodes ops) := by
  induction e using Expr.induction with
  | node kind symbol children each =>
      have formation := isFormation_formed (summedNodes ops)
      have below : ∀ child ∈ children.map (subToNegative .usual),
          child.Formed (summedNodes ops) := by
        simp only [List.mem_map]
        rintro _ ⟨child, member, rfl⟩
        exact each child member (formed.child member)
      rw [subToNegative_node]
      rcases subToNegativeNode_cases .usual
        (node kind symbol (children.map (subToNegative .usual))) with
        ⟨same, other⟩ | ⟨left, right, whole, turned⟩
      · obtain ⟨count, known⟩ := ((formed_node _ _ _).mp formed).1
        rw [same, formed_node, List.length_map]
        refine ⟨⟨count, ?_⟩, below⟩
        have notSub : ¬(kind = .binary ∧ symbol = "-") := by
          rintro ⟨rfl, rfl⟩
          have two : (children.map (subToNegative .usual)).length = 2 := by
            simpa [countFault?] using count
          obtain ⟨left, right, parts⟩ := List.length_eq_two.mp two
          exact other left right (by rw [parts]; rfl)
        simpa [summedNodes, known, imp_iff_not_or] using notSub
      · obtain ⟨rfl, rfl, parts⟩ := node.inj whole
        rw [turned]
        refine formation.binary rfl (below left (by simp [parts])) ?_
        exact formation.build (by decide) rfl rfl (by simp [below right, parts])

theorem subToNegative_of_formed {ops : List String} {e : Expr}
    (formed : e.Formed (summedNodes ops)) : subToNegative .usual e = e := by
  refine bottomUp_eq_self ?_ formed
  intro e formed
  rcases subToNegativeNode_cases .usual e with ⟨same, _⟩ | ⟨left, right, rfl, _⟩
  · exact same
  · have allowed := ((formed_node _ _ _).mp formed).1.2
    simp [summedNodes, SubtractionSymbols.usual] at allowed

theorem regroup_formed {ctx : Context} (noMinus : "-" ∉ ctx.assocOps) {e : Expr}
    (formed : e.Formed (summedNodes ctx.assocOps)) :
    (regroup ctx e).Formed (summedNodes ctx.assocOps) := by
  have trains : ∀ symbol ∈ ctx.assocOps, summedNodes ctx.assocOps .train symbol = true := by
    intro symbol known
    simp [summedNodes, trainsOver, known]
  -- A train is shortened only if its operator is associative, and subtraction is not.
  have binaries : ∀ symbol ∈ ctx.binaryOps, summedNodes ctx.assocOps .train symbol = true →
      summedNodes ctx.assocOps .binary symbol = true := by
    intro symbol _ isTrain
    have isAssoc : symbol ∈ ctx.assocOps := by simpa [summedNodes, trainsOver] using isTrain
    have notMinus : symbol ≠ "-" := by
      rintro rfl
      exact noMinus isAssoc
    simp [summedNodes, trainsOver, notMinus]
  exact formed.regroup (fun _ => rfl) trains binaries

theorem normalize_idempotent (ctx : Context) (noMinus : "-" ∉ ctx.assocOps) (e : Expr)
    (shaped : e.WellShaped) (proper : e.ProperTrains ctx.assocOps) :
    normalize ctx (normalize ctx e) = normalize ctx e := by
  have groups := proper.several shaped
  unfold normalize
  split
  · have negated := (isPass_subToNegativeNode .usual).bottomUp shaped
    have grouped := regroup_isGrouped ctx negated.1 (subToNegative_several .usual shaped groups)
    have formed := regroup_formed noMinus (subToNegative_formed (proper.formed shaped))
    rw [subToNegative_negativeToSub .usual (by decide), subToNegative_of_formed formed]
    exact congrArg (negativeToSub .usual) grouped.regroup_eq
  · exact (regroup_isGrouped ctx shaped groups).regroup_eq

theorem normalize_idempotent_call :
    let ctx : Context := { Context.arithmetic [] with flags := [simplifyFlag] }
    let e := call "f" [
      .binary "-" (train "+" [var "x", .binary "-" (var "y") (var "z")])
        (.binary "*" (const "1") (var "w")),
      .binary "-" (var "a") (const "2")]
    normalize ctx e = call "f" [
        train "+" [var "x", var "y", .unary "-" (var "z"), .unary "-" (var "w")],
        .binary "-" (var "a") (const "2")] ∧
      normalize ctx (normalize ctx e) = normalize ctx e :=
  ⟨by decide +kernel, normalize_idempotent _ (by decide) _ (by decide) (by decide)⟩

end Stepwise.Expr
