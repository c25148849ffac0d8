import Stepwise.Proofs.NormalForm.Idempotent

/-!
Flattening depends on the order of the operands only. However they are grouped, one train of them
is left, and there is nothing to flatten in it.
-/

namespace Stepwise.Expr

/-- The tree joins the operands, in their order, by binary nodes and trains of one operator. -/
inductive Joins (symbol : String) : List Expr → Expr → Prop
  | alone {operand : Expr} (other : operand.isGroupOf symbol = false) :
      Joins symbol [operand] operand
  | pair {before after : List Expr} {left right : Expr} (first : Joins symbol before left)
      (second : Joins symbol after right) :
      Joins symbol (before ++ after) (binary symbol left right)
  | row {parts : List (List Expr × Expr)} (each : ∀ part ∈ parts, Joins symbol part.1 part.2)
      (plain : (train symbol (parts.map Prod.snd)).template? = none) :
      Joins symbol (parts.flatMap Prod.fst) (train symbol (parts.map Prod.snd))

theorem joins_train {symbol : String} (terms : List Expr)
    (plain : (train symbol terms).template? = none)
    (others : ∀ term ∈ terms, term.isGroupOf symbol = false) :
    Joins symbol terms (train symbol terms) := by
  have whole := @Joins.row symbol (terms.map fun term => ([term], term))
  simp only [List.mem_map, List.map_map, Function.comp_def, List.map_id', List.flatMap_map,
    List.flatMap_singleton'] at whole
  refine whole ?_ plain
  rintro _ ⟨term, member, rfl⟩
  exact .alone (others term member)

/-- Some group of the operator stands directly inside another, here or further down among them. -/
inductive Nests (symbol : String) : Expr → Prop
  | here {outer inner : Expr} (isOuter : outer.isGroupOf symbol = true)
      (member : inner ∈ outer.children) (isInner : inner.isGroupOf symbol = true) :
      Nests symbol outer
  | inside {outer inner : Expr} (isOuter : outer.isGroupOf symbol = true)
      (member : inner ∈ outer.children) (nests : Nests symbol inner) : Nests symbol outer

theorem Nests.isGroupOf {symbol : String} {e : Expr} (nests : Nests symbol e) :
    e.isGroupOf symbol = true := by
  cases nests with
  | here isOuter _ _ => exact isOuter
  | inside isOuter _ _ => exact isOuter

theorem Nests.exists_inner {symbol : String} {e : Expr} (nests : Nests symbol e) :
    ∃ inner ∈ e.children, inner.isGroupOf symbol = true := by
  cases nests with
  | here _ member isInner => exact ⟨_, member, isInner⟩
  | inside _ member nests => exact ⟨_, member, nests.isGroupOf⟩

section

variable {ops : List String} {symbol : String}

theorem merged_isGroup {e : Expr} (shaped : e.WellShaped) (isGroup : e.isGroupOf e.symbol = true) :
    (train e.symbol (e.children.flatMap (terms e.symbol))).isGroupOf e.symbol = true := by
  have operand := isOperand_of_isGroupOf shaped isGroup
  refine (isGroupOf_iff _ _ _ _).mpr ⟨Or.inr rfl, rfl, template?_of_no_marker ?_⟩
  intro term member
  obtain ⟨child, inChildren, inTerms⟩ := List.mem_flatMap.mp member
  exact (isFormation_operand.terms ((isFormation_operand.group operand isGroup).2 child inChildren)
    e.symbol term inTerms).2

theorem isGroupOf_flatten (ops : List String) (symbol : String) {e : Expr}
    (shaped : e.WellShaped) : (e.flatten ops).isGroupOf symbol = e.isGroupOf symbol := by
  refine (isPass_flattenNode ops).sees ?_
    (fun _ _ _ shaped => (isPass_flattenNode ops).isGroupOf_inside shaped symbol) shaped
  intro e inShape
  unfold flattenNode
  split
  · rename_i merges
    simp only [Bool.and_eq_true, decide_eq_true_eq] at merges
    have merged := merged_isGroup inShape merges.1.2
    by_cases same : e.symbol = symbol
    · rw [← same, merged, merges.1.2]
    · have other : ∀ whole : Expr, whole.symbol = e.symbol → whole.isGroupOf symbol = false := by
        intro whole named
        refine Bool.eq_false_iff.mpr fun isGroup => same ?_
        exact named.symm.trans (symbol_of_isGroupOf isGroup)
      exact (other (train _ _) rfl).trans (other e rfl).symm
  · rfl

theorem terms_flattenNode {e : Expr} (shaped : e.WellShaped) (known : e.symbol ∈ ops)
    (isGroup : e.isGroupOf e.symbol = true) :
    terms e.symbol (flattenNode ops e) = e.children.flatMap (terms e.symbol) := by
  unfold flattenNode
  split
  · exact terms_of_group (merged_isGroup shaped isGroup)
  · rename_i stays
    have single : ∀ child ∈ e.children, terms e.symbol child = [child] := by
      intro child member
      refine terms_of_other (Bool.eq_false_iff.mpr fun nested => stays ?_)
      simp only [Bool.and_eq_true, decide_eq_true_eq, List.any_eq_true]
      exact ⟨⟨known, isGroup⟩, child, member, nested⟩
    rw [terms_of_group isGroup, List.flatMap_congr single, List.flatMap_singleton']

theorem terms_flatten (known : symbol ∈ ops) {kind : Kind} {children : List Expr}
    (shaped : (node kind symbol children).WellShaped)
    (isGroup : (node kind symbol children).isGroupOf symbol = true) :
    terms symbol ((node kind symbol children).flatten ops) =
      children.flatMap fun child => terms symbol (child.flatten ops) := by
  have inside := (isPass_flattenNode ops).inside shaped
  have insideGroup := ((isPass_flattenNode ops).isGroupOf_inside shaped symbol).trans isGroup
  rw [flatten, bottomUp_node]
  exact (terms_flattenNode inside known insideGroup).trans (List.flatMap_map _ _ _)

theorem flatten_of_nests (known : symbol ∈ ops) {e : Expr} (shaped : e.WellShaped)
    (nests : Nests symbol e) : e.flatten ops = train symbol (terms symbol (e.flatten ops)) := by
  obtain ⟨inner, member, isInner⟩ := nests.exists_inner
  have stillGroup := (isGroupOf_flatten ops symbol shaped).trans nests.isGroupOf
  obtain ⟨kind, name, children⟩ := e
  obtain rfl : name = symbol := symbol_of_isGroupOf nests.isGroupOf
  have merges : (node kind name children).flatten ops =
      train name ((children.map (flatten ops)).flatMap (terms name)) := by
    have insideGroup :=
      ((isPass_flattenNode ops).isGroupOf_inside shaped name).trans nests.isGroupOf
    have innerGroup := (isGroupOf_flatten ops name (shaped.child member)).trans isInner
    rw [flatten, bottomUp_node, ← flatten, flattenNode, if_pos]
    · rfl
    · simp only [Bool.and_eq_true, decide_eq_true_eq, List.any_eq_true]
      exact ⟨⟨known, insideGroup⟩, inner.flatten ops, List.mem_map_of_mem member, innerGroup⟩
  rw [terms_of_group stillGroup, merges]
  rfl

theorem Joins.terms_flatten (known : symbol ∈ ops) {operands : List Expr} {tree : Expr}
    (joins : Joins symbol operands tree) (shaped : tree.WellShaped) :
    terms symbol (tree.flatten ops) = operands.map (flatten ops) := by
  induction joins with
  | alone other => exact terms_of_other ((isGroupOf_flatten ops symbol shaped).trans other)
  | pair _ _ left right =>
      have first := left (shaped.child (by simp))
      have second := right (shaped.child (by simp))
      rw [binary, Expr.terms_flatten known shaped
        ((isGroupOf_iff _ _ _ _).mpr ⟨Or.inl rfl, rfl, rfl⟩)]
      simp [first, second]
  | @row parts _ plain each =>
      have terms : ∀ part ∈ parts,
          Expr.terms symbol (part.2.flatten ops) = part.1.map (flatten ops) :=
        fun part member => each part member (shaped.child (List.mem_map_of_mem member))
      rw [train, Expr.terms_flatten known shaped
        ((isGroupOf_iff _ _ _ _).mpr ⟨Or.inr rfl, rfl, plain⟩), List.flatMap_map,
        List.flatMap_congr terms, List.map_flatMap]

end

/-- Flattening leaves no group inside another of the same operator and is done after one time, and
operands that are joined in groups of which one stands inside another become one train. -/
theorem flatten_canonical (ops : List String) :
    (∀ e : Expr, e.WellShaped →
      (e.flatten ops).Groups (unnested ops) ∧ (e.flatten ops).flatten ops = e.flatten ops) ∧
    ∀ symbol ∈ ops, ∀ (operands : List Expr) (tree : Expr), tree.WellShaped →
      Joins symbol operands tree → Nests symbol tree →
        tree.flatten ops = train symbol (operands.map (flatten ops)) := by
  constructor
  · intro e shaped
    have separate : (e.flatten ops).Groups (unnested ops) := flatten_unnested shaped
    exact ⟨separate, bottomUp_eq_self (fun _ => flattenNode_of_unnested) separate⟩
  · intro symbol known operands tree shaped joins nests
    rw [flatten_of_nests known shaped nests, joins.terms_flatten known shaped]

/-- A sum in two rows, one inside a pair, with a product and a variadic sum among its operands. -/
theorem flatten_canonical_rows :
    let product := binary "*" (binary "*" (var "b") (var "c")) (var "d")
    let repeated := variadicTrain "+" (var "A")
    let tree := binary "+" (train "+" [var "a", product]) (train "+" [repeated, const "1", var "x"])
    tree.WellShaped ∧ Joins "+" [var "a", product, repeated, const "1", var "x"] tree ∧
      Nests "+" tree ∧
      tree.flatten ["+", "*"] = train "+"
        [var "a", train "*" [var "b", var "c", var "d"], repeated, const "1", var "x"] ∧
      (tree.flatten ["+", "*"]).Groups (unnested ["+", "*"]) := by
  intro product repeated tree
  have shaped : tree.WellShaped := by decide
  have joins : Joins "+" [var "a", product, repeated, const "1", var "x"] tree :=
    .pair (joins_train [var "a", product] rfl (by decide))
      (joins_train [repeated, const "1", var "x"] rfl (by decide))
  have nests : Nests "+" tree := @Nests.here "+" tree _ rfl (List.mem_cons_self) rfl
  obtain ⟨normal, canonical⟩ := flatten_canonical ["+", "*"]
  exact ⟨shaped, joins, nests, canonical "+" (by simp) _ tree shaped joins nests,
    (normal tree shaped).1⟩

end Stepwise.Expr
