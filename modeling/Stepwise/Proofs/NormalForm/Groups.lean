import Mathlib.Algebra.BigOperators.Group.List.Basic
import Stepwise.Proofs.NormalForm.Simplify

/-!
Conditions on the groups of a tree, that is on its binary nodes and its trains that are not
variadic. Each pass of the normal form establishes one of them, and the later ones keep it.
-/

namespace Stepwise.Expr

def Groups (test : String → List Expr → Bool) (e : Expr) : Prop :=
  e.allNodes (fun kind symbol children => (node kind symbol children).isGroupOf symbol = true →
    test symbol children = true) = true

instance (test : String → List Expr → Bool) (e : Expr) : Decidable (e.Groups test) :=
  inferInstanceAs (Decidable (_ = true))

def several (_ : String) (operands : List Expr) : Bool := 2 ≤ operands.length

/-- No operand that simplification drops or that makes a product 0. -/
def nontrivial (symbol : String) (operands : List Expr) : Bool :=
  operands.all fun operand => !operand.isTrivialIn symbol

def unnested (ops : List String) (symbol : String) (operands : List Expr) : Bool :=
  symbol ∉ ops || operands.all fun operand => !operand.isGroupOf symbol

theorem several_map (f : Expr → Expr) (symbol : String) (operands : List Expr) :
    several symbol (operands.map f) = several symbol operands := by
  rw [several, several, List.length_map]

theorem nontrivial_iff (symbol : String) (operands : List Expr) :
    nontrivial symbol operands = true ↔
      ∀ operand ∈ operands, operand.isTrivialIn symbol = false := by
  simp [nontrivial]

theorem unnested_iff {ops : List String} {symbol : String} (known : symbol ∈ ops)
    (operands : List Expr) : unnested ops symbol operands = true ↔
      ∀ operand ∈ operands, operand.isGroupOf symbol = false := by
  simp [unnested, known]

section

variable {test : String → List Expr → Bool}

theorem groups_iff (e : Expr) :
    e.Groups test ↔ (e.isGroupOf e.symbol = true → test e.symbol e.children = true) ∧
      ∀ child ∈ e.children, child.Groups test := by
  obtain ⟨kind, symbol, children⟩ := e
  rw [Groups, allNodes_node, decide_eq_true_iff]
  rfl

theorem groups_of_not_group {kind : Kind} {symbol : String} {children : List Expr}
    (other : kind ≠ .binary ∧ kind ≠ .train) (each : ∀ child ∈ children, child.Groups test) :
    (node kind symbol children).Groups test := by
  refine (groups_iff _).mpr ⟨fun isGroup => ?_, each⟩
  obtain ⟨groups, _⟩ := (isGroupOf_iff _ _ _ _).mp isGroup
  exact absurd groups (by simp [other])

theorem symbol_of_isGroupOf {e : Expr} {symbol : String} (isGroup : e.isGroupOf symbol = true) :
    e.symbol = symbol := by
  obtain ⟨kind, name, children⟩ := e
  exact ((isGroupOf_iff _ _ _ _).mp isGroup).2.1

theorem isOperand_of_isGroupOf {e : Expr} (shaped : e.WellShaped) {symbol : String}
    (isGroup : e.isGroupOf symbol = true) : e.IsOperand := by
  refine ⟨shaped, ?_⟩
  obtain ⟨kind, name, children⟩ := e
  rcases ((isGroupOf_iff _ _ _ _).mp isGroup).1 with rfl | rfl
  all_goals rfl

theorem Groups.here {e : Expr} (groups : e.Groups test) {symbol : String}
    (isGroup : e.isGroupOf symbol = true) : test symbol e.children = true := by
  obtain rfl := symbol_of_isGroupOf isGroup
  exact ((groups_iff e).mp groups).1 isGroup

theorem Groups.child {e : Expr} (groups : e.Groups test) {child : Expr}
    (member : child ∈ e.children) : child.Groups test :=
  ((groups_iff e).mp groups).2 child member

end

section

variable {step : Expr → Expr} (pass : IsPass step)

include pass

theorem IsPass.isGroupOf_inside {kind : Kind} {name : String} {children : List Expr}
    (shaped : (node kind name children).WellShaped) (symbol : String) :
    (node kind name (children.map (Expr.bottomUp step))).isGroupOf symbol =
      (node kind name children).isGroupOf symbol := by
  have variadic : (node kind name (children.map (Expr.bottomUp step))).isVariadicTrain =
      (node kind name children).isVariadicTrain := by
    rw [Bool.eq_iff_iff, (pass.inside shaped).isVariadicTrain_iff, shaped.isVariadicTrain_iff]
    simp only [List.mem_map]
    constructor
    · rintro ⟨_, ⟨child, member, rfl⟩, marks⟩
      exact ⟨child, member, (pass.bottomUp (shaped.child member)).2 ▸ marks⟩
    · rintro ⟨child, member, marks⟩
      exact ⟨_, ⟨child, member, rfl⟩, (pass.bottomUp (shaped.child member)).2.trans marks⟩
  unfold isGroupOf
  rw [variadic]
  rfl

theorem IsPass.keepsGroups {test : String → List Expr → Bool}
    (inside : ∀ symbol children, (∀ child ∈ children, child.WellShaped) →
      test symbol children = true → test symbol (children.map (Expr.bottomUp step)) = true)
    (here : ∀ e : Expr, e.WellShaped → e.Groups test → (step e).Groups test) {e : Expr}
    (shaped : e.WellShaped) (groups : e.Groups test) : (Expr.bottomUp step e).Groups test := by
  induction e using Expr.induction with
  | node kind symbol children each =>
      rw [bottomUp_node]
      apply here _ (pass.inside shaped)
      rw [groups_iff, symbol_node, children_node, pass.isGroupOf_inside shaped]
      constructor
      · exact fun isGroup =>
          inside symbol children (fun child => shaped.child) (groups.here isGroup)
      · simp only [List.mem_map]
        rintro _ ⟨child, member, rfl⟩
        exact each child member (shaped.child member) (groups.child member)

theorem IsPass.establishesGroups {test : String → List Expr → Bool}
    (here : ∀ e : Expr, e.WellShaped → (∀ child ∈ e.children, child.Groups test) →
      (step e).Groups test) {e : Expr} (shaped : e.WellShaped) :
    (Expr.bottomUp step e).Groups test := by
  induction e using Expr.induction with
  | node kind symbol children each =>
      rw [bottomUp_node]
      apply here _ (pass.inside shaped)
      simp only [children_node, List.mem_map]
      rintro _ ⟨child, member, rfl⟩
      exact each child member (shaped.child member)

theorem IsPass.sees {h : Expr → Bool} (same : ∀ e : Expr, e.WellShaped → h (step e) = h e)
    (blind : ∀ kind symbol children, (node kind symbol children).WellShaped →
      h (node kind symbol (children.map (Expr.bottomUp step))) = h (node kind symbol children))
    {e : Expr} (shaped : e.WellShaped) : h (Expr.bottomUp step e) = h e := by
  obtain ⟨kind, symbol, children⟩ := e
  rw [bottomUp_node, same _ (pass.inside shaped), blind _ _ _ shaped]

end

theorem groups_two {test : String → List Expr → Bool} {symbol : String} {left right : Expr}
    (holds : test symbol [left, right] = true) (first : left.Groups test)
    (second : right.Groups test) : (binary symbol left right).Groups test :=
  (groups_iff _).mpr ⟨fun _ => holds, by simp [binary, first, second]⟩

theorem subToNegative_several (symbols : SubtractionSymbols) {e : Expr} (shaped : e.WellShaped)
    (groups : e.Groups several) : (subToNegative symbols e).Groups several := by
  refine (isPass_subToNegativeNode symbols).keepsGroups ?_ ?_ shaped groups
  · exact fun symbol children _ enough => (several_map _ symbol children).trans enough
  · intro e _ groups
    rcases subToNegativeNode_cases symbols e with ⟨same, _⟩ | ⟨left, right, rfl, turned⟩
    · rwa [same]
    · have negated : (unary symbols.negative right).Groups several :=
        groups_of_not_group (by decide) (by simpa using groups.child (by simp [binary]))
      rw [turned]
      exact groups_two rfl (groups.child (by simp [binary])) negated

theorem groups_ofKept {test : String → List Expr → Bool} {symbol : String} {neutral : Int}
    {kept : List Expr} (holds : 2 ≤ kept.length → test symbol kept = true)
    (each : ∀ child ∈ kept, child.Groups test) : (ofKept symbol neutral kept).Groups test := by
  unfold ofKept
  split
  · exact groups_of_not_group (by decide) (by simp)
  · exact each _ (by simp)
  · rename_i nonempty notSingle
    refine (groups_iff _).mpr ⟨fun _ => holds ?_, each⟩
    rcases kept with _ | ⟨first, _ | ⟨second, rest⟩⟩
    · exact absurd rfl nonempty
    · exact absurd rfl (notSingle first)
    · simp

theorem simplify_several {e : Expr} (shaped : e.WellShaped) (groups : e.Groups several) :
    e.simplify.Groups several := by
  refine isPass_simplifyNode.keepsGroups ?_ ?_ shaped groups
  · exact fun symbol children _ enough => (several_map _ symbol children).trans enough
  · intro e _ groups
    rcases simplifyNode_cases e with ⟨same, _⟩ | ⟨_, _, turned⟩ | ⟨neutral, _, _, _, _, turned⟩
    · rwa [same]
    · rw [turned]
      exact groups_of_not_group (by decide) (by simp)
    · rw [turned]
      refine groups_ofKept (fun enough => by simpa [several] using enough) ?_
      exact fun child member => groups.child (List.mem_filter.mp member).1

theorem simplify_nontrivial {e : Expr} (shaped : e.WellShaped) :
    e.simplify.Groups nontrivial := by
  refine isPass_simplifyNode.establishesGroups ?_ shaped
  intro e _ each
  rcases simplifyNode_cases e with ⟨same, stays⟩ | ⟨_, _, turned⟩ | ⟨neutral, _, _, _, stays, turned⟩
  · rw [same, groups_iff]
    exact ⟨fun isGroup => (nontrivial_iff _ _).mpr (stays isGroup), each⟩
  · rw [turned]
    exact groups_of_not_group (by decide) (by simp)
  · rw [turned]
    exact groups_ofKept (fun _ => (nontrivial_iff _ _).mpr stays)
      fun child member => each child (List.mem_filter.mp member).1

theorem simplifyNode_of_nontrivial {e : Expr} (groups : e.Groups nontrivial) :
    simplifyNode e = e := by
  rcases simplifyNode_cases e with ⟨same, _⟩ | ⟨isGroup, ⟨zero, member, isZero⟩, _⟩ |
    ⟨neutral, isGroup, known, fewer, _, _⟩
  · exact same
  · have stays := (nontrivial_iff _ _).mp (groups.here isGroup) zero member
    simp [isTrivialIn, isZero] at stays
  · have kept : e.children.filter (fun child => !child.isInteger neutral) = e.children := by
      rw [List.filter_eq_self]
      intro child member
      have stays := (nontrivial_iff _ _).mp (groups.here isGroup) child member
      rw [isTrivialIn_of_neutral known, Bool.or_eq_false_iff] at stays
      simp [stays.1]
    rw [kept] at fewer
    omega

/-! Flattening. -/

theorem terms_of_group {symbol : String} {e : Expr} (isGroup : e.isGroupOf symbol = true) :
    terms symbol e = e.children := if_pos isGroup

theorem terms_of_other {symbol : String} {e : Expr} (other : e.isGroupOf symbol = false) :
    terms symbol e = [e] := by
  rw [terms, if_neg (by simp [other])]

theorem mem_terms {symbol : String} {child term : Expr} (member : term ∈ terms symbol child) :
    (child.isGroupOf symbol = true ∧ term ∈ child.children) ∨
      (child.isGroupOf symbol = false ∧ term = child) := by
  unfold terms at member
  split at member
  · rename_i isGroup
    exact Or.inl ⟨isGroup, member⟩
  · rename_i other
    exact Or.inr ⟨by simpa using other, List.mem_singleton.mp member⟩

theorem isTrivialIn_of_isGroupOf {e : Expr} {symbol : String} (isGroup : e.isGroupOf symbol = true)
    (other : String) : e.isTrivialIn other = false := by
  obtain ⟨kind, name, children⟩ := e
  obtain ⟨groups, _⟩ := (isGroupOf_iff _ _ _ _).mp isGroup
  rcases groups with rfl | rfl
  all_goals simp [isTrivialIn, isInteger, numeral?, isConst]

theorem isTrivialIn_flatten (ops : List String) (symbol : String) {e : Expr}
    (shaped : e.WellShaped) : (e.flatten ops).isTrivialIn symbol = e.isTrivialIn symbol := by
  refine (isPass_flattenNode ops).sees ?_ (fun _ _ _ _ => rfl) shaped
  intro e _
  unfold flattenNode
  split
  · rename_i merges
    simp only [Bool.and_eq_true, decide_eq_true_eq] at merges
    rw [isTrivialIn_of_isGroupOf merges.1.2]
    simp [train, isTrivialIn, isInteger, numeral?, isConst]
  · rfl

theorem length_le_flatMap_terms {e : Expr} (shaped : e.WellShaped) {symbol : String}
    (isGroup : e.isGroupOf symbol = true) :
    e.children.length ≤ (e.children.flatMap (terms symbol)).length := by
  have operand := isOperand_of_isGroupOf shaped isGroup
  rw [List.length_flatMap]
  have each : ∀ size ∈ e.children.map fun child => (terms symbol child).length, 1 ≤ size := by
    simp only [List.mem_map]
    rintro _ ⟨child, member, rfl⟩
    exact List.length_pos_iff.mpr (isFormation_operand.terms_ne_nil
      ((isFormation_operand.group operand isGroup).2 child member) symbol)
  simpa using List.length_le_sum_of_one_le _ each

theorem groups_flattenNode {test : String → List Expr → Bool} {ops : List String} {e : Expr}
    (each : ∀ child ∈ e.children, child.Groups test)
    (merged : e.symbol ∈ ops → e.isGroupOf e.symbol = true →
      test e.symbol (e.children.flatMap (terms e.symbol)) = true)
    (unmerged : e.isGroupOf e.symbol = true →
      (e.symbol ∈ ops → ∀ child ∈ e.children, child.isGroupOf e.symbol = false) →
        test e.symbol e.children = true) : (flattenNode ops e).Groups test := by
  unfold flattenNode
  split
  · rename_i merges
    simp only [Bool.and_eq_true, decide_eq_true_eq] at merges
    obtain ⟨⟨known, isGroup⟩, _⟩ := merges
    refine (groups_iff _).mpr ⟨fun _ => merged known isGroup, ?_⟩
    intro term member
    obtain ⟨child, inChildren, inTerms⟩ := List.mem_flatMap.mp member
    rcases mem_terms inTerms with ⟨_, below⟩ | ⟨_, rfl⟩
    · exact (each child inChildren).child below
    · exact each term inChildren
  · rename_i stays
    refine (groups_iff e).mpr ⟨fun isGroup => unmerged isGroup ?_, each⟩
    intro known child member
    rw [Bool.eq_false_iff]
    intro nested
    apply stays
    simp only [Bool.and_eq_true, decide_eq_true_eq, List.any_eq_true]
    exact ⟨⟨known, isGroup⟩, child, member, nested⟩

theorem flatten_several {ops : List String} {e : Expr} (shaped : e.WellShaped)
    (groups : e.Groups several) : (e.flatten ops).Groups several := by
  refine (isPass_flattenNode ops).keepsGroups ?_ ?_ shaped groups
  · exact fun symbol children _ enough => (several_map _ symbol children).trans enough
  · intro e inShape groups
    refine groups_flattenNode (fun child => groups.child) ?_ fun isGroup _ => groups.here isGroup
    intro _ isGroup
    have enough : 2 ≤ e.children.length := by simpa [several] using groups.here isGroup
    have bound := length_le_flatMap_terms inShape isGroup
    simpa [several] using enough.trans bound

theorem flatten_nontrivial {ops : List String} {e : Expr} (shaped : e.WellShaped)
    (groups : e.Groups nontrivial) : (e.flatten ops).Groups nontrivial := by
  refine (isPass_flattenNode ops).keepsGroups ?_ ?_ shaped groups
  · intro symbol children inShape holds
    rw [nontrivial_iff] at holds ⊢
    simp only [List.mem_map]
    rintro _ ⟨child, member, rfl⟩
    exact (isTrivialIn_flatten ops symbol (inShape child member)).trans (holds child member)
  · intro e _ groups
    refine groups_flattenNode (fun child => groups.child) ?_ fun isGroup _ => groups.here isGroup
    intro _ isGroup
    rw [nontrivial_iff]
    intro term member
    obtain ⟨child, inChildren, inTerms⟩ := List.mem_flatMap.mp member
    rcases mem_terms inTerms with ⟨nested, below⟩ | ⟨_, rfl⟩
    · exact (nontrivial_iff _ _).mp ((groups.child inChildren).here nested) term below
    · exact (nontrivial_iff _ _).mp (groups.here isGroup) term inChildren

theorem flatten_unnested {ops : List String} {e : Expr} (shaped : e.WellShaped) :
    (e.flatten ops).Groups (unnested ops) := by
  refine (isPass_flattenNode ops).establishesGroups ?_ shaped
  intro e _ each
  refine groups_flattenNode each ?_ ?_
  · intro known isGroup
    rw [unnested_iff known]
    intro term member
    obtain ⟨child, inChildren, inTerms⟩ := List.mem_flatMap.mp member
    rcases mem_terms inTerms with ⟨nested, below⟩ | ⟨other, rfl⟩
    · exact (unnested_iff known _).mp ((each child inChildren).here nested) term below
    · exact other
  · intro isGroup alone
    by_cases known : e.symbol ∈ ops
    · exact (unnested_iff known _).mpr (alone known)
    · simp [unnested, known]

theorem flattenNode_of_unnested {ops : List String} {e : Expr} (groups : e.Groups (unnested ops)) :
    flattenNode ops e = e := by
  unfold flattenNode
  split
  · rename_i merges
    simp only [Bool.and_eq_true, decide_eq_true_eq, List.any_eq_true] at merges
    obtain ⟨⟨known, isGroup⟩, child, member, nested⟩ := merges
    exact absurd nested (by simp [(unnested_iff known _).mp (groups.here isGroup) child member])
  · rfl

theorem isTrivialIn_shorten (ops : List String) (symbol : String) {e : Expr}
    (shaped : e.WellShaped) : (e.shorten ops).isTrivialIn symbol = e.isTrivialIn symbol := by
  refine (isPass_shortenNode ops).sees ?_ (fun _ _ _ _ => rfl) shaped
  intro e _
  unfold shortenNode
  split
  · split
    · rfl
    · rfl
  · rfl

theorem isGroupOf_shorten (ops : List String) (symbol : String) {e : Expr}
    (shaped : e.WellShaped) : (e.shorten ops).isGroupOf symbol = e.isGroupOf symbol := by
  refine (isPass_shortenNode ops).sees ?_
    (fun _ _ _ shaped => (isPass_shortenNode ops).isGroupOf_inside shaped symbol) shaped
  intro e inShape
  unfold shortenNode
  split
  · split
    · rw [Bool.eq_iff_iff, binary, isGroupOf_iff, isGroupOf_iff]
      simp [template?]
    · rfl
  · rfl

theorem shorten_keepsGroups {test : String → List Expr → Bool} {ops : List String}
    (inside : ∀ symbol children, (∀ child ∈ children, child.WellShaped) →
      test symbol children = true → test symbol (children.map (shorten ops)) = true) {e : Expr}
    (shaped : e.WellShaped) (groups : e.Groups test) : (e.shorten ops).Groups test := by
  refine (isPass_shortenNode ops).keepsGroups inside ?_ shaped groups
  intro e inShape groups
  unfold shortenNode
  split
  · rename_i symbol left right
    have isGroup : (node .train symbol [left, right]).isGroupOf symbol = true :=
      (isGroupOf_iff _ _ _ _).mpr ⟨Or.inr rfl, rfl, template?_of_length (by simp)⟩
    split
    · exact groups_two (groups.here isGroup) (groups.child (by simp)) (groups.child (by simp))
    · exact groups
  · exact groups

theorem shorten_several {ops : List String} {e : Expr} (shaped : e.WellShaped)
    (groups : e.Groups several) : (e.shorten ops).Groups several := by
  refine shorten_keepsGroups ?_ shaped groups
  exact fun symbol children _ enough => (several_map _ symbol children).trans enough

theorem shorten_nontrivial {ops : List String} {e : Expr} (shaped : e.WellShaped)
    (groups : e.Groups nontrivial) : (e.shorten ops).Groups nontrivial := by
  refine shorten_keepsGroups ?_ shaped groups
  intro symbol children inShape holds
  rw [nontrivial_iff] at holds ⊢
  simp only [List.mem_map]
  rintro _ ⟨child, member, rfl⟩
  exact (isTrivialIn_shorten ops symbol (inShape child member)).trans (holds child member)

theorem shorten_unnested {ops known : List String} {e : Expr} (shaped : e.WellShaped)
    (groups : e.Groups (unnested known)) : (e.shorten ops).Groups (unnested known) := by
  refine shorten_keepsGroups ?_ shaped groups
  intro symbol children inShape holds
  by_cases member : symbol ∈ known
  · rw [unnested_iff member] at holds ⊢
    simp only [List.mem_map]
    rintro _ ⟨child, inChildren, rfl⟩
    exact (isGroupOf_shorten ops symbol (inShape child inChildren)).trans (holds child inChildren)
  · simp [unnested, member]

def Short (ops : List String) (e : Expr) : Prop :=
  e.allNodes (fun kind symbol children => kind = .train → symbol ∈ ops → children.length ≠ 2) = true

theorem short_node (ops : List String) (kind : Kind) (symbol : String) (children : List Expr) :
    (node kind symbol children).Short ops ↔
      (kind = .train → symbol ∈ ops → children.length ≠ 2) ∧ ∀ child ∈ children, child.Short ops := by
  rw [Short, allNodes_node, decide_eq_true_iff]
  rfl

theorem shortenNode_short {ops : List String} {e : Expr}
    (each : ∀ child ∈ e.children, child.Short ops) : (shortenNode ops e).Short ops := by
  unfold shortenNode
  split
  · rename_i symbol left right
    split
    · exact (short_node _ _ _ _).mpr ⟨by simp, each⟩
    · rename_i other
      exact (short_node _ _ _ _).mpr ⟨fun _ known => absurd known other, each⟩
  · rename_i notPair
    obtain ⟨kind, symbol, children⟩ := e
    refine (short_node _ _ _ _).mpr ⟨?_, each⟩
    rintro rfl _ two
    obtain ⟨left, right, rfl⟩ := List.length_eq_two.mp two
    exact notPair symbol left right rfl

theorem shorten_short (ops : List String) (e : Expr) : (e.shorten ops).Short ops := by
  induction e using Expr.induction with
  | node kind symbol children each =>
      rw [shorten, bottomUp_node]
      apply shortenNode_short
      simp only [children_node, List.mem_map]
      rintro _ ⟨child, member, rfl⟩
      exact each child member

theorem shortenNode_of_short {ops : List String} {e : Expr} (short : e.Short ops) :
    shortenNode ops e = e := by
  unfold shortenNode
  split
  · rename_i symbol left right
    split
    · rename_i known
      exact absurd rfl (((short_node _ _ _ _).mp short).1 rfl known)
    · rfl
  · rfl

theorem unwrapNode_of_several {e : Expr} (groups : e.Groups several) : unwrapNode e = e := by
  unfold unwrapNode
  split
  · rename_i symbol term
    split
    · rfl
    · rename_i plain
      have isGroup : (node .train symbol [term]).isGroupOf symbol = true := by
        rw [isGroupOf_iff]
        exact ⟨Or.inr rfl, rfl, by simpa [isVariadicTrain] using plain⟩
      have enough := groups.here isGroup
      simp [several] at enough
  · rfl

end Stepwise.Expr
