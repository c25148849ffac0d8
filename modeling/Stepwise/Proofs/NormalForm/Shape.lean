import Stepwise.NormalForm
import Stepwise.Proofs.NormalForm.Subtraction

/-!
The passes of the normal form keep trees formed, where the nodes that they make are allowed, and
they keep them well shaped. Both are cases of one argument, for any property that nodes have when
their children have it.
-/

namespace Stepwise.Expr

/-- A property that a node has when it is allowed, its kind admits the number of its children, and
they all have it. A marker or a variadic train may have it for other reasons. -/
structure IsFormation (allowed : Kind → String → Bool) (P : Expr → Prop) : Prop where
  build : ∀ {kind symbol children}, kind ≠ .variadic → countFault? kind children.length = none →
    allowed kind symbol = true → (∀ child ∈ children, P child) → P (node kind symbol children)
  parts : ∀ {kind symbol children}, kind ≠ .variadic →
    (node kind symbol children).template? = none → P (node kind symbol children) →
      (countFault? kind children.length = none ∧ allowed kind symbol = true) ∧
        ∀ child ∈ children, P child

theorem isFormation_formed (allowed : Kind → String → Bool) :
    IsFormation allowed (Formed allowed) where
  build _ count known each := (formed_node _ _ _).mpr ⟨⟨count, known⟩, each⟩
  parts _ _ formed := (formed_node _ _ _).mp formed

theorem isFormation_operand : IsFormation (fun _ _ => true) IsOperand where
  build := by
    intro kind symbol children notMarker count _ each
    have plain : (node kind symbol children).template? = none :=
      template?_of_no_marker fun child member => (each child member).2
    exact ⟨(wellShaped_iff_of_plain plain).mpr ⟨count, each⟩, by simpa using notMarker⟩
  parts := by
    intro kind symbol children notMarker plain operand
    obtain ⟨count, each⟩ := (wellShaped_iff_of_plain plain).mp operand.1
    exact ⟨⟨count, rfl⟩, each⟩

theorem isGroupOf_iff (symbol : String) (kind : Kind) (name : String) (children : List Expr) :
    (node kind name children).isGroupOf symbol = true ↔
      (kind = .binary ∨ kind = .train) ∧ name = symbol ∧
        (node kind name children).template? = none := by
  simp only [isGroupOf, isVariadicTrain, Bool.and_eq_true, Bool.or_eq_true, decide_eq_true_eq,
    Bool.not_eq_true', Option.isSome_eq_false_iff, Option.isNone_iff_eq_none, and_assoc]
  rfl

section

variable {allowed : Kind → String → Bool} {P : Expr → Prop} (formation : IsFormation allowed P)

include formation

theorem IsFormation.binary {symbol : String} (known : allowed .binary symbol = true)
    {left right : Expr} (first : P left) (second : P right) : P (Expr.binary symbol left right) :=
  formation.build (by decide) rfl known (by simp [first, second])

theorem IsFormation.train {symbol : String} (known : allowed .train symbol = true)
    {terms : List Expr} (nonempty : terms ≠ []) (each : ∀ term ∈ terms, P term) :
    P (Expr.train symbol terms) := by
  refine formation.build (by decide) ?_ known each
  have positive := List.length_pos_iff.mpr nonempty
  rw [countFault?, if_neg (by omega)]

theorem IsFormation.group {e : Expr} (formed : P e) {symbol : String}
    (isGroup : e.isGroupOf symbol = true) :
    (countFault? e.kind e.children.length = none ∧ allowed e.kind e.symbol = true) ∧
      ∀ child ∈ e.children, P child := by
  obtain ⟨kind, name, children⟩ := e
  obtain ⟨groups, _, plain⟩ := (isGroupOf_iff _ _ _ _).mp isGroup
  refine formation.parts ?_ plain formed
  rintro rfl
  simp at groups

theorem IsFormation.group_ne_nil {e : Expr} (formed : P e) {symbol : String}
    (isGroup : e.isGroupOf symbol = true) : e.children ≠ [] := by
  obtain ⟨⟨count, _⟩, _⟩ := formation.group formed isGroup
  obtain ⟨kind, name, children⟩ := e
  obtain ⟨groups, _, _⟩ := (isGroupOf_iff _ _ _ _).mp isGroup
  rintro empty
  rw [children_node] at empty
  subst empty
  rcases groups with rfl | rfl
  all_goals simp [countFault?] at count

theorem IsFormation.terms {e : Expr} (formed : P e) (symbol : String) :
    ∀ term ∈ terms symbol e, P term := by
  intro term member
  unfold Expr.terms at member
  split at member
  · rename_i isGroup
    exact (formation.group formed isGroup).2 term member
  · exact List.mem_singleton.mp member ▸ formed

theorem IsFormation.terms_ne_nil {e : Expr} (formed : P e) (symbol : String) :
    Expr.terms symbol e ≠ [] := by
  unfold Expr.terms
  split
  · rename_i isGroup
    exact formation.group_ne_nil formed isGroup
  · simp

theorem IsFormation.flattenNode {ops : List String}
    (trains : ∀ symbol ∈ ops, allowed .train symbol = true) {e : Expr} (formed : P e) :
    P (flattenNode ops e) := by
  unfold Expr.flattenNode
  split
  · rename_i merges
    simp only [Bool.and_eq_true, decide_eq_true_eq] at merges
    obtain ⟨⟨known, isGroup⟩, _⟩ := merges
    have each := (formation.group formed isGroup).2
    refine formation.train (trains _ known) ?_ ?_
    · obtain ⟨first, rest, parts⟩ :=
        List.exists_cons_of_ne_nil (formation.group_ne_nil formed isGroup)
      rw [parts, List.flatMap_cons, ne_eq, List.append_eq_nil_iff]
      exact fun empty => formation.terms_ne_nil (each first (by simp [parts])) _ empty.1
    · intro term member
      obtain ⟨child, inChildren, inTerms⟩ := List.mem_flatMap.mp member
      exact formation.terms (each child inChildren) e.symbol term inTerms
  · exact formed

theorem IsFormation.shortenNode {ops : List String}
    (binaries : ∀ symbol ∈ ops, allowed .train symbol = true → allowed .binary symbol = true)
    {e : Expr} (formed : P e) : P (shortenNode ops e) := by
  unfold Expr.shortenNode
  split
  · rename_i symbol left right
    obtain ⟨⟨_, known⟩, each⟩ :=
      formation.parts (by decide) (template?_of_length (by simp)) formed
    split
    · rename_i isBinary
      exact formation.binary (binaries _ isBinary known) (each left (by simp))
        (each right (by simp))
    · exact formed
  · exact formed

theorem IsFormation.unwrapNode {e : Expr} (formed : P e) : P (unwrapNode e) := by
  unfold Expr.unwrapNode
  split
  · rename_i symbol term
    split
    · exact formed
    · rename_i plain
      refine (formation.parts (by decide) ?_ formed).2 term (by simp)
      simpa [isVariadicTrain] using plain
  · exact formed

theorem IsFormation.subToNegativeNode {symbols : SubtractionSymbols}
    (addition : allowed .binary symbols.add = true)
    (negation : allowed .unary symbols.negative = true) {e : Expr} (formed : P e) :
    P (subToNegativeNode symbols e) := by
  rcases subToNegativeNode_cases symbols e with ⟨same, _⟩ | ⟨left, right, rfl, turned⟩
  · rwa [same]
  · have each := (formation.parts (by decide) rfl formed).2
    rw [turned]
    refine formation.binary addition (each left (by simp)) ?_
    exact formation.build (by decide) rfl negation (by simp [each right])

theorem IsFormation.negativeToSubNode {symbols : SubtractionSymbols}
    (subtraction : allowed .binary symbols.sub = true) {e : Expr} (formed : P e) :
    P (negativeToSubNode symbols e) := by
  rcases negativeToSubNode_cases symbols e with same | ⟨left, operand, rfl, turned⟩
  · rwa [same]
  · have each := (formation.parts (by decide) rfl formed).2
    have negated : P (unary symbols.negative operand) := each _ (by simp)
    have inner := (formation.parts (by decide) rfl negated).2
    rw [turned]
    exact formation.binary subtraction (each left (by simp)) (inner operand (by simp))

end

/-- What a pass may do to a node: it makes operands of operands and leaves markers alone. -/
structure IsPass (step : Expr → Expr) : Prop where
  operand : ∀ {e}, e.IsOperand → (step e).IsOperand
  marker : ∀ mark children, step (node .variadic mark children) = node .variadic mark children

section

variable {step : Expr → Expr} (pass : IsPass step)

include pass

theorem IsPass.keeps {e : Expr} (shaped : e.WellShaped) :
    (step e).WellShaped ∧ (step e).isMarker = e.isMarker := by
  by_cases isMarker : e.isMarker = true
  · obtain ⟨kind, mark, children⟩ := e
    have isVariadic : kind = .variadic := by simpa using isMarker
    subst isVariadic
    rw [pass.marker]
    exact ⟨shaped, rfl⟩
  · have notMarker : e.isMarker = false := by simpa using isMarker
    rw [notMarker]
    exact pass.operand ⟨shaped, notMarker⟩

theorem IsPass.bottomUp {e : Expr} (shaped : e.WellShaped) :
    (bottomUp step e).WellShaped ∧ (bottomUp step e).isMarker = e.isMarker := by
  induction e using Expr.induction with
  | node kind symbol children each =>
      rw [bottomUp_node]
      exact pass.keeps (shaped.map fun child member => each child member (shaped.child member))

theorem IsPass.inside {kind : Kind} {symbol : String} {children : List Expr}
    (shaped : (node kind symbol children).WellShaped) :
    (node kind symbol (children.map (Expr.bottomUp step))).WellShaped :=
  shaped.map fun _ member => pass.bottomUp (shaped.child member)

end

theorem isPass_flattenNode (ops : List String) : IsPass (flattenNode ops) where
  operand operand := isFormation_operand.flattenNode (fun _ _ => rfl) operand
  marker mark children := by simp [flattenNode, isGroupOf]

theorem isPass_shortenNode (ops : List String) : IsPass (shortenNode ops) where
  operand operand := isFormation_operand.shortenNode (fun _ _ _ => rfl) operand
  marker _ _ := rfl

theorem isPass_unwrapNode : IsPass unwrapNode where
  operand operand := isFormation_operand.unwrapNode operand
  marker _ _ := rfl

theorem isPass_subToNegativeNode (symbols : SubtractionSymbols) :
    IsPass (subToNegativeNode symbols) where
  operand operand := isFormation_operand.subToNegativeNode rfl rfl operand
  marker _ _ := rfl

theorem isPass_negativeToSubNode (symbols : SubtractionSymbols) :
    IsPass (negativeToSubNode symbols) where
  operand operand := isFormation_operand.negativeToSubNode rfl operand
  marker _ _ := rfl

end Stepwise.Expr
