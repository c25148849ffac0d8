import Mathlib.Data.Set.Function
import Stepwise.Proofs.Expr.Expansion

/-!
The copies of a template keep apart: two of them have the shared variables in common and no others.
Within a copy, different variables get different names unless a shared one has the name that is made
for another.
-/

namespace Stepwise.Expr

/-- In the copy with the number, a variable of the template gets the name of a shared one. -/
def Captures (template : Expr) (shared : List String) (number : Nat) : Prop :=
  ∃ name ∈ template.variableNames, name ∉ shared ∧
    ∃ kept ∈ template.variableNames, kept ∈ shared ∧ kept = name ++ "_" ++ toString number

section

variable {shared : List String} {template : Expr}

theorem injOn_copyName_iff (number : Nat) :
    Set.InjOn (copyName shared number) {name | name ∈ template.variableNames} ↔
      ¬template.Captures shared number := by
  constructor
  · rintro injective ⟨name, member, unshared, kept, occurs, shares, rfl⟩
    have same : copyName shared number (name ++ "_" ++ toString number) =
        copyName shared number name := by
      rw [copyName_of_mem shares, copyName_of_not_mem unshared]
      rfl
    exact unshared (injective occurs member same ▸ shares)
  · intro apart first inFirst second inSecond same
    have captured {kept name : String} (shares : kept ∈ shared) (unshared : name ∉ shared)
        (occurs : kept ∈ template.variableNames) (member : name ∈ template.variableNames)
        (same : copyName shared number kept = copyName shared number name) : False := by
      rw [copyName_of_mem shares, copyName_of_not_mem unshared] at same
      exact apart ⟨name, member, unshared, kept, occurs, shares, same⟩
    by_cases firstShares : first ∈ shared
    · by_cases secondShares : second ∈ shared
      · rwa [copyName_of_mem firstShares, copyName_of_mem secondShares] at same
      · exact (captured firstShares secondShares inFirst inSecond same).elim
    · by_cases secondShares : second ∈ shared
      · exact (captured secondShares firstShares inSecond inFirst same.symm).elim
      · rw [copyName_of_not_mem firstShares, copyName_of_not_mem secondShares] at same
        exact (numbered_injective same).1

theorem mem_variableNames_rename (names : String → String) (e : Expr) (name : String) :
    name ∈ (e.rename names).variableNames ↔
      ∃ original ∈ e.variableNames, names original = name := by
  simp [mem_variableNames, occurrences_rename]

theorem mem_shared_of_copyName_eq {m n : Nat} (apart : m ≠ n) {first second : String}
    (same : copyName shared m first = copyName shared n second) :
    first ∈ shared ∨ second ∈ shared := by
  by_contra unshared
  obtain ⟨firstUnshared, secondUnshared⟩ := not_or.mp unshared
  rw [copyName_of_not_mem firstUnshared, copyName_of_not_mem secondUnshared] at same
  exact apart (numbered_injective same).2

theorem mem_two_copies_iff {m n : Nat} (apart : m ≠ n) (name : String) :
    name ∈ (template.rename (copyName shared m)).variableNames ∧
        name ∈ (template.rename (copyName shared n)).variableNames ↔
      name ∈ template.variableNames ∧ name ∈ shared := by
  simp only [mem_variableNames_rename]
  constructor
  · rintro ⟨⟨first, inFirst, here⟩, second, inSecond, there⟩
    rcases mem_shared_of_copyName_eq apart (here.trans there.symm) with shares | shares
    · rw [copyName_of_mem shares] at here
      exact here ▸ ⟨inFirst, shares⟩
    · rw [copyName_of_mem shares] at there
      exact there ▸ ⟨inSecond, shares⟩
  · rintro ⟨occurs, shares⟩
    exact ⟨⟨name, occurs, copyName_of_mem shares m⟩, name, occurs, copyName_of_mem shares n⟩

theorem template?_eq_some {e : Expr} (variadic : e.template? = some template) :
    ∃ symbol mark, e = node .train symbol [node .variadic mark [template]] := by
  unfold template? at variadic
  split at variadic
  · rename_i symbol mark inner
    obtain rfl := Option.some.inj variadic
    exact ⟨symbol, mark, rfl⟩
  · simp at variadic

theorem wellShaped_copies {symbol mark : String}
    (shaped : (node .train symbol [node .variadic mark [template]]).WellShaped)
    (shared : List String) {count : Nat} (positive : 1 ≤ count) :
    (train symbol (copies shared template count)).WellShaped := by
  have marker := shaped.child (List.mem_singleton_self _)
  have operand : template.WellShaped ∧ template.isMarker = false :=
    ⟨marker.child (List.mem_singleton_self _),
      marker.child_isMarker_eq_false rfl (List.mem_singleton_self _)⟩
  rw [train, wellShaped_node, shapeFault?_eq_none_iff]
  have nonempty : count ≠ 0 := by omega
  refine ⟨⟨by simp [countFault?, nonempty], ?_⟩, ?_⟩
  · intro part member marks
    obtain ⟨index, _, rfl⟩ := (mem_copies _ _ _ _).mp member
    simp [operand.2] at marks
  · intro part member
    obtain ⟨index, _, rfl⟩ := (mem_copies _ _ _ _).mp member
    exact operand.1.rename _

end

/-- A variadic train is expanded to renamings of its template. They keep the shared names, any two
have just the shared variables in common, and a renaming is injective unless it captures. -/
theorem expand_hygienic (e template : Expr) (shaped : e.WellShaped)
    (variadic : e.template? = some template) (count : Nat) (positive : 1 ≤ count)
    (shared : List String) :
    ∃ names : Nat → String → String,
      let instances := (List.range count).map fun index => template.rename (names index)
      e.expand count shared = .ok (train e.symbol instances) ∧
        (train e.symbol instances).WellShaped ∧
        (∀ index < count, (∀ name ∈ shared, names index name = name) ∧
          (Set.InjOn (names index) {name | name ∈ template.variableNames} ↔
            ¬template.Captures shared (index + 1))) ∧
        ∀ i < count, ∀ j < count, i ≠ j → ∀ name,
          name ∈ (template.rename (names i)).variableNames ∧
              name ∈ (template.rename (names j)).variableNames ↔
            name ∈ template.variableNames ∧ name ∈ shared := by
  obtain ⟨symbol, mark, rfl⟩ := template?_eq_some variadic
  refine ⟨fun index => copyName shared ((index + 1 : Nat) : Int), ?_⟩
  dsimp only
  rw [← copies_eq_map]
  refine ⟨?_, wellShaped_copies shaped shared positive, ?_, ?_⟩
  · rw [expand_eq _ shared count positive rfl, expandAll_variadicTrain]
    rfl
  · exact fun index _ => ⟨fun name shares => copyName_of_mem shares _, injOn_copyName_iff _⟩
  · intro i _ j _ apart name
    exact mem_two_copies_iff (by omega) name

/-- Three multiples of one factor. -/
theorem expand_hygienic_multiples :
    let multiple := binary "*" (var "x") (var "a")
    (variadicTrain "+" multiple).WellShaped ∧
      (variadicTrain "+" multiple).template? = some multiple ∧
      ∃ names : Nat → String → String,
        (variadicTrain "+" multiple).expand 3 ["x"] =
            .ok (train "+" ((List.range 3).map fun index => multiple.rename (names index))) ∧
          (∀ index < 3, Set.InjOn (names index) {name | name ∈ multiple.variableNames}) ∧
          ∀ name, name ∈ (multiple.rename (names 0)).variableNames ∧
            name ∈ (multiple.rename (names 2)).variableNames ↔ name = "x" := by
  have shaped : (variadicTrain "+" (binary "*" (var "x") (var "a"))).WellShaped := by decide
  refine ⟨shaped, rfl, ?_⟩
  obtain ⟨names, expanded, _, each, two⟩ := expand_hygienic _ _ shaped rfl 3 (by decide) ["x"]
  refine ⟨names, expanded, fun index less => (each index less).2.mpr ?_, fun name => ?_⟩
  · rintro ⟨_, _, unshared, kept, _, shares, same⟩
    obtain rfl := List.mem_singleton.mp shares
    have underscore : '_' ∈ "x".toList := by
      rw [same]
      simp
    exact absurd underscore (by decide)
  · rw [two 0 (by decide) 2 (by decide) (by decide)]
    have occurs : "x" ∈ (binary "*" (var "x") (var "a")).variableNames := by decide
    exact ⟨fun both => List.mem_singleton.mp both.2, fun same => by simpa [same] using occurs⟩

/-- The first copy of `a` is named like the shared variable `a_1`: only a renaming that makes one
variable of two turns the template into that copy. -/
theorem expand_captures :
    let template := binary "*" (var "a") (var "a_1")
    let image := binary "*" (var "a_1") (var "a_1")
    (variadicTrain "+" template).expand 1 ["a_1"] = .ok (train "+" [image]) ∧
      ∀ names : String → String, template.rename names = image →
        ¬Set.InjOn names {name | name ∈ template.variableNames} := by
  refine ⟨by decide +kernel, fun names renamed injective => ?_⟩
  obtain ⟨first, second⟩ : names "a" = "a_1" ∧ names "a_1" = "a_1" := by
    simpa [binary, var, rename, renameEach] using renamed
  have same := injective (by decide : "a" ∈ (binary "*" (var "a") (var "a_1")).variableNames)
    (by decide : "a_1" ∈ (binary "*" (var "a") (var "a_1")).variableNames)
    (first.trans second.symm)
  exact absurd same (by decide)

end Stepwise.Expr
