import Mathlib.Data.List.Induction
import Stepwise.Proofs.NormalForm.Regular

/-!
Trains as chains. A train is written without parentheses and read as a chain of binary nodes that
leans to the left; flattening makes the chain the same train again.
-/

namespace Stepwise.Expr

/-- The first term, with the others applied to it one by one. -/
def chain (symbol : String) (first : Expr) (others : List Expr) : Expr :=
  others.foldl (binary symbol) first

def chainNode : Expr → Expr
  | node .train symbol (first :: others) => chain symbol first others
  | e => e

def chained : Expr → Expr := bottomUp chainNode

def grouped (symbol : String) : List Expr → Expr
  | [only] => only
  | [left, right] => binary symbol left right
  | terms => train symbol terms

theorem grouped_isGroup (symbol : String) (first second : Expr) (others : List Expr) :
    (grouped symbol (first :: second :: others)).symbol = symbol ∧
      (grouped symbol (first :: second :: others)).isGroupOf symbol = true ∧
      (grouped symbol (first :: second :: others)).children = first :: second :: others := by
  cases others with
  | nil => exact ⟨rfl, (isGroupOf_iff _ _ _ _).mpr ⟨Or.inl rfl, rfl, rfl⟩, rfl⟩
  | cons third others =>
      exact ⟨rfl, (isGroupOf_iff _ _ _ _).mpr ⟨Or.inr rfl, rfl, template?_of_length (by simp)⟩, rfl⟩

section

variable {ops : List String}

theorem flattenNode_grouped {symbol : String} (known : symbol ∈ ops) {first last : Expr}
    {others : List Expr} (each : ∀ term ∈ first :: others, term.isGroupOf symbol = false)
    (final : last.isGroupOf symbol = false) :
    flattenNode ops (binary symbol (grouped symbol (first :: others)) last) =
      grouped symbol (first :: (others ++ [last])) := by
  have isGroup : ∀ left : Expr, (binary symbol left last).isGroupOf symbol = true :=
    fun left => (isGroupOf_iff _ _ _ _).mpr ⟨Or.inl rfl, rfl, rfl⟩
  cases others with
  | nil =>
      have alone : first.isGroupOf symbol = false := each first (by simp)
      simp [flattenNode, grouped, binary, alone, final]
  | cons second others =>
      obtain ⟨_, nested, children⟩ := grouped_isGroup symbol first second others
      have whole : flattenNode ops (binary symbol (grouped symbol (first :: second :: others)) last) =
          train symbol ((first :: second :: others) ++ [last]) := by
        rw [flattenNode, if_pos]
        · simp [binary, terms, nested, children, final]
        · simpa [binary, known, nested] using isGroup _
      rw [whole]
      cases others
      all_goals rfl

theorem flatten_chain {symbol : String} (known : symbol ∈ ops) (first : Expr) (others : List Expr)
    (each : ∀ term ∈ first :: others, (term.flatten ops).isGroupOf symbol = false) :
    (chain symbol first others).flatten ops =
      grouped symbol (first.flatten ops :: others.map (flatten ops)) := by
  induction others using List.reverseRecOn with
  | nil => rfl
  | append_singleton others last ih =>
      have before := ih fun term member => each term (by
        rcases List.mem_cons.mp member with rfl | inOthers
        · simp
        · simp [inOthers])
      have whole : (chain symbol first (others ++ [last])).flatten ops = flattenNode ops
          (binary symbol ((chain symbol first others).flatten ops) (last.flatten ops)) := by
        rw [chain, List.foldl_append, List.foldl_cons, List.foldl_nil, binary, flatten,
          bottomUp_node]
        rfl
      rw [whole, before, List.map_append]
      refine flattenNode_grouped known ?_ (each last (by simp))
      rw [← List.map_cons]
      simp only [List.mem_map]
      rintro _ ⟨term, member, rfl⟩
      refine each term ?_
      rcases List.mem_cons.mp member with rfl | inOthers
      · simp
      · simp [inOthers]

theorem flatten_chained {e : Expr} (formed : e.Formed (trainsOver ops))
    (lengths : e.TrainLengths (3 ≤ ·)) (groups : e.Groups (unnested ops)) :
    e.chained.flatten ops = e := by
  induction e using Expr.induction with
  | node kind symbol children each =>
      have restored : (children.map chained).map (flatten ops) = children := by
        rw [List.map_map]
        refine (List.map_congr_left fun child member => ?_).trans (List.map_id children)
        exact each child member (formed.child member) (lengths.child member) (groups.child member)
      rw [chained, bottomUp_node, ← chained]
      by_cases isTrain : kind = .train
      · subst isTrain
        have known : symbol ∈ ops := by
          simpa [trainsOver] using ((formed_node _ _ _).mp formed).1.2
        have three : 3 ≤ children.length := ((trainLengths_node _ _ _ _).mp lengths).1 rfl
        have isGroup : (node .train symbol children).isGroupOf symbol = true :=
          (isGroupOf_iff _ _ _ _).mpr ⟨Or.inr rfl, rfl, template?_of_length (by omega)⟩
        have separate := (unnested_iff known _).mp (groups.here isGroup)
        obtain ⟨first, rest, rfl⟩ := List.exists_cons_of_length_pos (by omega : 0 < children.length)
        obtain ⟨second, third, others, rfl⟩ :
            ∃ second third others, rest = second :: third :: others := by
          rcases rest with _ | ⟨second, _ | ⟨third, others⟩⟩
          · simp at three
          · simp at three
          · exact ⟨second, third, others, rfl⟩
        rw [List.map_cons, chainNode, flatten_chain known, ← List.map_cons, ← List.map_cons, restored]
        · rfl
        · rw [← List.map_cons]
          intro term member
          have inside := List.mem_map_of_mem (f := flatten ops) member
          rw [restored] at inside
          exact separate _ inside
      · have same : chainNode (node kind symbol (children.map chained)) =
            node kind symbol (children.map chained) := by
          unfold chainNode
          split
          · rename_i whole
            injection whole with train
            exact absurd train isTrain
          · rfl
        rw [same, flatten, bottomUp_node, ← flatten, restored]
        exact flattenNode_of_unnested groups

end

end Stepwise.Expr
