import Stepwise.Proofs.Matching.Composition
import Stepwise.Proofs.Matching.Exchange

/-!
The instance test as a relation. It is reflexive exactly on the trees whose templates are variables
of their own, and it is transitive wherever instances compose.
-/

namespace Stepwise.Expr

def ellipsisMarkers (kind : Kind) (symbol : String) : Bool := kind ≠ .variadic || symbol = ellipsis

/-- Every template is a variable that stands in templates only, and neither the name of its copy nor
the ellipsis is among the names. -/
def TemplatesApart (fixed names : List String) (e : Expr) : Prop :=
  e.allNodes (fun kind _ children => kind = .variadic → ellipsis ∉ names ∧
    ∀ child ∈ children,
      child.isVar = true ∧ child.symbol ∉ fixed ∧ copyName [] 1 child.symbol ∉ names) = true

instance (fixed names : List String) (e : Expr) : Decidable (e.TemplatesApart fixed names) :=
  inferInstanceAs (Decidable (_ = true))

theorem templatesApart_node (fixed names : List String) (kind : Kind) (symbol : String)
    (children : List Expr) :
    (node kind symbol children).TemplatesApart fixed names ↔
      (kind = .variadic → ellipsis ∉ names ∧
        ∀ child ∈ children,
          child.isVar = true ∧ child.symbol ∉ fixed ∧ copyName [] 1 child.symbol ∉ names) ∧
        ∀ child ∈ children, child.TemplatesApart fixed names := by
  rw [TemplatesApart, allNodes_node, decide_eq_true_iff]
  rfl

theorem MarkerFree.templatesApart {e : Expr} (free : e.MarkerFree) (fixed names : List String) :
    e.TemplatesApart fixed names :=
  allNodes_mono (fun _ _ _ notMarker =>
    decide_eq_true fun marks => absurd marks (of_decide_eq_true notMarker)) free

theorem TemplatesApart.lone {fixed names : List String} {e : Expr}
    (apart : e.TemplatesApart fixed names) : e.LoneTemplates :=
  allNodes_mono (fun _ _ _ here => decide_eq_true fun marks child member =>
    ((of_decide_eq_true here marks).2 child member).1) apart

theorem TemplatesApart.markerFree {fixed names : List String} {e : Expr}
    (apart : e.TemplatesApart fixed names) (isName : ellipsis ∈ names) : e.MarkerFree :=
  allNodes_mono (fun kind _ _ here => decide_eq_true (p := kind ≠ .variadic) fun marks =>
    (of_decide_eq_true here marks).1 isName) apart

theorem templatesApart_variadicTrain {fixed names : List String} {symbol mark name : String} :
    (node .train symbol [node .variadic mark [var name]]).TemplatesApart fixed names ↔
      ellipsis ∉ names ∧ name ∉ fixed ∧ copyName [] 1 name ∉ names := by
  simp [templatesApart_node, var, isVar]

section

variable {shared fixed bound names : List String} {count : Nat} {σ : String → Expr} {e : Expr}
  {name : String}

theorem self_of_node {kind : Kind} {symbol : String} {children : List Expr} (notVar : kind ≠ .var)
    (plain : (node kind symbol children).template? = none)
    (same : ((node kind symbol children).expandAll shared count).subst σ =
      node kind symbol children) {child : Expr} (member : child ∈ children) :
    (child.expandAll shared count).subst σ = child := by
  rw [expandAll_node _ _ _ _ _ notVar plain, subst_node _ _ _ _ notVar, List.map_map] at same
  have each := (node.inj same).2.2.trans (List.map_id children).symm
  exact List.map_inj_left.mp each child member

theorem count_of_self (shaped : e.WellShaped) (variadic : e.HasVariadicTrain)
    (same : (e.expandAll shared count).subst σ = e) : count = 1 := by
  induction e using templateInduction with
  | var symbol children =>
      obtain rfl := shaped.children_eq_nil (Or.inr rfl)
      simp [hasVariadicTrain_node, isVariadicTrain, template?] at variadic
  | variadicTrain symbol mark template =>
      rw [expandAll_variadicTrain, subst_node _ _ _ _ (by decide)] at same
      simpa using congrArg List.length (node.inj same).2.2
  | other kind symbol children notVar plain each =>
      rcases (hasVariadicTrain_node _ _ _).mp variadic with here | ⟨child, member, below⟩
      · simp [isVariadicTrain, plain] at here
      · exact each child member (shaped.child member) below (self_of_node notVar plain same member)

theorem value_of_fixed (shaped : e.WellShaped) (same : (e.expandAll shared count).subst σ = e)
    (isFixed : name ∈ e.occurrences true) : σ name = var name := by
  induction e using templateInduction with
  | var symbol children =>
      obtain rfl := shaped.children_eq_nil (Or.inr rfl)
      obtain rfl : name = symbol := by simpa using isFixed
      rwa [expandAll_var, subst_var] at same
  | variadicTrain symbol mark template => simp [occurrences_node] at isFixed
  | other kind symbol children notVar plain each =>
      rw [occurrences_node _ _ _ _ notVar] at isFixed
      split at isFixed
      · simp at isFixed
      · obtain ⟨child, member, inside⟩ := List.mem_flatMap.mp isFixed
        exact each child member (shaped.child member) (self_of_node notVar plain same member) inside

theorem value_of_copy {symbol mark : String}
    (same : ((node .train symbol [node .variadic mark [var name]]).expandAll shared 1).subst σ =
      node .train symbol [node .variadic mark [var name]]) :
    σ (copyName shared 1 name) = node .variadic mark [var name] := by
  rw [expandAll_variadicTrain, subst_node _ _ _ _ (by decide), copies_eq_map] at same
  exact (List.cons.inj (node.inj same).2.2).1

theorem LoneTemplates.exists_var {symbol mark : String} {template : Expr}
    (lone : (node .train symbol [node .variadic mark [template]]).LoneTemplates)
    (shaped : (node .train symbol [node .variadic mark [template]]).WellShaped) :
    ∃ name, template = var name :=
  ((shaped.child (List.mem_singleton_self _)).child (List.mem_singleton_self _)).eq_var
    (((loneTemplates_node _ _ _).mp (lone.child (List.mem_singleton_self _))).1 rfl template
      (List.mem_singleton_self _))

theorem value_of_shared (shaped : e.WellShaped) (lone : e.LoneTemplates)
    (same : (e.expandAll shared 1).subst σ = e) (occurs : name ∈ e.occurrences false)
    (known : name ∈ shared) :
    σ name = var name ∨ ∃ mark, σ name = node .variadic mark [var name] := by
  induction e using templateInduction with
  | var symbol children =>
      obtain rfl := shaped.children_eq_nil (Or.inr rfl)
      obtain rfl : name = symbol := by simpa using occurs
      rw [expandAll_var, subst_var] at same
      exact Or.inl same
  | variadicTrain symbol mark template =>
      obtain ⟨original, rfl⟩ := lone.exists_var shaped
      obtain rfl : name = original := by simpa [occurrences_node, var] using occurs
      have value := value_of_copy same
      rw [copyName_of_mem known] at value
      exact Or.inr ⟨mark, value⟩
  | other kind symbol children notVar plain each =>
      obtain ⟨child, member, inside⟩ := exists_child_of_mem_occurrences notVar occurs
      exact each child member (shaped.child member) (lone.child member)
        (self_of_node notVar plain same member) inside

theorem copyName_ne_self (name : String) (index : Int) : copyName [] index name ≠ name := by
  rw [copyName_of_not_mem List.not_mem_nil]
  intro same
  have lengths := congrArg String.length same
  have underscore : "_".length = 1 := by decide
  rw [String.length_append, String.length_append] at lengths
  omega

theorem templatesApart_of_self (counts : σ ellipsis = const (toString 1))
    (fixedValues : ∀ name ∈ fixed, σ name = var name)
    (sharedValues : ∀ name ∈ names, name ∈ bound →
      σ name = var name ∨ ∃ mark, σ name = node .variadic mark [var name])
    (shaped : e.WellShaped) (root : e.isMarker = false) (lone : e.LoneTemplates)
    (binds : e.boundNames fixed 1 ⊆ bound) (same : (e.expandAll fixed 1).subst σ = e) :
    e.TemplatesApart fixed names := by
  induction e using templateInduction with
  | var symbol children =>
      obtain rfl := shaped.children_eq_nil (Or.inr rfl)
      exact (plain_var symbol).2.templatesApart _ _
  | variadicTrain symbol mark template =>
      obtain ⟨name, rfl⟩ := lone.exists_var shaped
      have value := value_of_copy same
      rw [boundNames_variadicTrain, List.cons_subset] at binds
      have unfixed : name ∉ fixed := by
        intro isFixed
        rw [copyName_of_mem isFixed, fixedValues name isFixed] at value
        simp [var] at value
      have copy : copyName fixed 1 name = copyName [] 1 name := by
        rw [copyName_of_not_mem unfixed, copyName_of_not_mem List.not_mem_nil]
      have copyBound : copyName [] 1 name ∈ bound := by
        apply binds.2
        rw [← copy]
        simp [copies_eq_map, var]
      rw [copy] at value
      refine templatesApart_variadicTrain.mpr ⟨?_, unfixed, ?_⟩
      · intro isName
        rcases sharedValues ellipsis isName binds.1 with own | ⟨mark, own⟩
        · simp [counts, const, var] at own
        · simp [counts, const] at own
      · intro isName
        rcases sharedValues _ isName copyBound with own | ⟨mark, own⟩
        · simp [value, var] at own
        · rw [value] at own
          have names := (node.inj (List.cons.inj (node.inj own).2.2).1).2.1
          exact copyName_ne_self name 1 names.symm
  | other kind symbol children notVar plain each =>
      rw [boundNames_node _ _ _ _ _ notVar plain] at binds
      refine (templatesApart_node _ _ _ _ _).mpr ⟨fun marks => ?_, fun child member => ?_⟩
      · simp [marks] at root
      · exact each child member (shaped.child member) (shaped.child_isMarker_eq_false plain member)
          (lone.child member)
          (fun name isBound => binds (List.mem_flatMap.mpr ⟨child, member, isBound⟩))
          (self_of_node notVar plain same member)

theorem self_of_templatesApart (fixedValues : ∀ name ∈ fixed, σ name = var name)
    (copied : ∀ name ∈ names, name ∉ fixed →
      σ (copyName [] 1 name) = node .variadic ellipsis [var name])
    (unshared : ∀ name ∈ names, name ∉ fixed → name ∉ shared) (shaped : e.WellShaped)
    (root : e.isMarker = false) (marked : e.Formed ellipsisMarkers)
    (apart : e.TemplatesApart fixed names) (isFixed : e.occurrences true ⊆ fixed)
    (within : e.occurrences false ⊆ names) : (e.expandAll shared 1).subst σ = e := by
  induction e using templateInduction with
  | var symbol children =>
      obtain rfl := shaped.children_eq_nil (Or.inr rfl)
      rw [expandAll_var, subst_var]
      exact fixedValues symbol (isFixed (by simp))
  | variadicTrain symbol mark template =>
      obtain ⟨name, rfl⟩ := apart.lone.exists_var shaped
      obtain ⟨_, unfixed, _⟩ := templatesApart_variadicTrain.mp apart
      obtain rfl : mark = ellipsis := by
        have known := ((formed_node _ _ _).mp (marked.child (List.mem_singleton_self _))).1.2
        simpa [ellipsisMarkers] using known
      have isName : name ∈ names := within (by simp [var, occurrences_node])
      have copy : copyName shared 1 name = copyName [] 1 name := by
        rw [copyName_of_not_mem (unshared name isName unfixed),
          copyName_of_not_mem List.not_mem_nil]
      have value : σ (copyName shared 1 name) = node .variadic ellipsis [var name] :=
        copy ▸ copied name isName unfixed
      rw [expandAll_variadicTrain, subst_node _ _ _ _ (by decide), copies_eq_map]
      exact congrArg (fun part => node .train symbol [part]) value
  | other kind symbol children notVar plain each =>
      rw [occurrences_node _ _ _ _ notVar, if_neg (by simpa using root)] at isFixed
      rw [expandAll_node _ _ _ _ _ notVar plain, subst_node _ _ _ _ notVar, List.map_map]
      have inner : ∀ child ∈ children, (child.expandAll shared 1).subst σ = child := by
        intro child member
        refine each child member (shaped.child member) (shaped.child_isMarker_eq_false plain member)
          (marked.child member) (((templatesApart_node _ _ _ _ _).mp apart).2 child member) ?_ ?_
        · exact fun name occurs => isFixed (List.mem_flatMap.mpr ⟨child, member, occurs⟩)
        · exact fun name occurs => within (mem_occurrences_of_child notVar member occurs)
      exact congrArg (node kind symbol) ((List.map_congr_left inner).trans (List.map_id children))

theorem TemplatesApart.copy_not_mem (shaped : e.WellShaped) (root : e.isMarker = false)
    (apart : e.TemplatesApart fixed names) (isFixed : e.occurrences true ⊆ fixed)
    (occurs : name ∈ e.occurrences false) (unfixed : name ∉ fixed) :
    copyName [] 1 name ∉ names := by
  induction e using templateInduction with
  | var symbol children =>
      obtain rfl : name = symbol := by simpa using occurs
      exact absurd (isFixed (by simp)) unfixed
  | variadicTrain symbol mark template =>
      obtain ⟨original, rfl⟩ := apart.lone.exists_var shaped
      obtain rfl : name = original := by simpa [occurrences_node, var] using occurs
      exact (templatesApart_variadicTrain.mp apart).2.2
  | other kind symbol children notVar plain each =>
      rw [occurrences_node _ _ _ _ notVar, if_neg (by simpa using root)] at isFixed
      obtain ⟨child, member, inside⟩ := exists_child_of_mem_occurrences notVar occurs
      exact each child member (shaped.child member) (shaped.child_isMarker_eq_false plain member)
        (((templatesApart_node _ _ _ _ _).mp apart).2 child member)
        (fun name below => isFixed (List.mem_flatMap.mpr ⟨child, member, below⟩)) inside

def marking (fixed names : List String) : String → Expr :=
  counting 1 (spread (names.filter (· ∉ fixed)) 1
    (fun name _ => node .variadic ellipsis [var name]) var)

theorem marking_copy (absent : ellipsis ∉ names) (isName : name ∈ names) (unfixed : name ∉ fixed) :
    marking fixed names (copyName [] 1 name) = node .variadic ellipsis [var name] := by
  have other : copyName [] 1 name ≠ ellipsis :=
    copyName_ne_ellipsis (fun same => absent (same ▸ isName)) [] 1
  have member : name ∈ names.filter (· ∉ fixed) :=
    List.mem_filter.mpr ⟨isName, decide_eq_true unfixed⟩
  have copied : numbered? (names.filter (· ∉ fixed)) 1 (copyName [] 1 name) = some (name, 1) := by
    rw [copyName_of_not_mem List.not_mem_nil]
    exact numbered?_copy member Nat.zero_lt_one
  rw [marking, counting, if_neg other, spread, copied]

theorem marking_of_not_copy (other : name ≠ ellipsis)
    (plain : ∀ original ∈ names, original ∉ fixed → name ≠ copyName [] 1 original) :
    marking fixed names name = var name := by
  have copied : numbered? (names.filter (· ∉ fixed)) 1 name = none := by
    refine List.find?_eq_none.mpr fun copy inCopies => ?_
    obtain ⟨original, known, inRange⟩ := List.mem_flatMap.mp inCopies
    obtain ⟨isName, unfixed⟩ := List.mem_filter.mp known
    obtain ⟨index, less, rfl⟩ := List.mem_map.mp inRange
    obtain rfl : index = 0 := by simpa using less
    have differ := plain original isName (of_decide_eq_true unfixed)
    rw [copyName_of_not_mem List.not_mem_nil] at differ
    exact fun same => differ (of_decide_eq_true same)
  rw [marking, counting, if_neg other, spread, copied]

end

section

variable {e : Expr} (operand : e.IsOperand)

include operand

theorem expands_self (marked : e.Formed ellipsisMarkers) (variadic : ¬e.MarkerFree)
    (apart : e.TemplatesApart e.fixedVariables e.variableNames) :
    e.Expands e 1 (marking e.fixedVariables e.variableNames) := by
  have absent : ellipsis ∉ e.variableNames := fun isName => variadic (apart.markerFree isName)
  have isFixed : e.occurrences true ⊆ e.fixedVariables :=
    fun name => (mem_fixedVariables e name).mpr
  have within : e.occurrences false ⊆ e.variableNames :=
    fun name => (mem_variableNames e name).mpr
  have notCopy (name : String) (isName : name ∈ e.variableNames) (original : String)
      (known : original ∈ e.variableNames) (unfixed : original ∉ e.fixedVariables) :
      name ≠ copyName [] 1 original := by
    rintro rfl
    exact apart.copy_not_mem operand.1 operand.2 isFixed ((mem_variableNames e original).mp known)
      unfixed isName
  have fixedValues (name : String) (known : name ∈ e.fixedVariables) :
      marking e.fixedVariables e.variableNames name = var name := by
    have isName := (mem_variableNames e name).mpr
      (mem_occurrences_of_fixed ((mem_fixedVariables e name).mp known))
    exact marking_of_not_copy (fun same => absent (same ▸ isName)) (notCopy name isName)
  have becomes (shared : List String)
      (unshared : ∀ name ∈ e.variableNames, name ∉ e.fixedVariables → name ∉ shared) :
      (e.expandAll shared 1).subst (marking e.fixedVariables e.variableNames) = e :=
    self_of_templatesApart fixedValues (fun name => marking_copy absent) unshared operand.1
      operand.2 marked apart isFixed within
  refine ⟨Nat.le_refl 1, Or.inr ⟨by decide, counting_ellipsis _ _⟩,
    becomes _ fun _ _ unfixed => unfixed, becomes _ ?_⟩
  intro name isName unfixed isBound
  rcases boundNames_cases operand.1 operand.2 isBound with
    rfl | known | ⟨original, occurs, index, less, same⟩
  · exact absent isName
  · exact unfixed (isFixed known)
  · obtain rfl : index = 0 := by omega
    by_cases known : original ∈ e.fixedVariables
    · rw [copyName_of_mem known] at same
      exact unfixed (same ▸ known)
    · rw [copyName_of_not_mem known, ← copyName_of_not_mem List.not_mem_nil] at same
      exact notCopy name isName original (within occurs) known same.symm

theorem templatesApart_of_isInstanceOf (variadic : ¬e.MarkerFree)
    (yes : e.isInstanceOf e = .ok true) : e.TemplatesApart e.fixedVariables e.variableNames := by
  obtain ⟨bindings, found⟩ := exists_of_isInstanceOf yes
  have lone := (onlyMutually_self operand.1 operand.2 bindings found).1
  obtain ⟨count, σ, expands⟩ :=
    expands_of_isInstanceOf operand.1 operand.1 operand.2 (lone.flat operand.1) yes
  have hasTrain : e.HasVariadicTrain := Classical.byContradiction fun absent =>
    variadic (markerFree_of_not_hasVariadicTrain operand.1 operand.2 absent)
  obtain rfl := count_of_self operand.1 hasTrain expands.matched
  have counts := (expands.counted.resolve_left variadic).2
  refine templatesApart_of_self counts ?_ ?_ operand.1 operand.2 lone (fun _ bound => bound)
    expands.matched
  · intro name known
    exact value_of_fixed operand.1 expands.matched ((mem_fixedVariables e name).mp known)
  · intro name isName isBound
    exact value_of_shared operand.1 lone expands.rebuilt ((mem_variableNames e name).mp isName)
      isBound

theorem isInstanceOf_self (marked : e.Formed ellipsisMarkers) :
    e.isInstanceOf e = .ok (decide (e.TemplatesApart e.fixedVariables e.variableNames)) := by
  by_cases free : e.MarkerFree
  · rw [isInstanceOf_self_of_plain ⟨operand.1, free⟩, decide_eq_true (free.templatesApart _ _)]
  · obtain ⟨answer, answers⟩ := exists_isInstanceOf operand.1 operand.1 operand.2
      (onlyMutually_self operand.1 operand.2)
    rw [answers]
    cases answer with
    | true => rw [decide_eq_true (templatesApart_of_isInstanceOf operand free answers)]
    | false =>
        rw [decide_eq_false]
        intro apart
        have expands := expands_self operand marked free apart
        have yes := isInstanceOf_of_expands operand.1 operand.1 operand.2
          (apart.lone.flat operand.1) expands
        simp [answers] at yes

end

/-- The instance test is reflexive exactly on the trees whose templates are apart, and transitive
wherever instances compose. -/
theorem instance_test_laws (e : Expr) (operand : e.IsOperand) :
    (e.Formed ellipsisMarkers →
      e.isInstanceOf e = .ok (decide (e.TemplatesApart e.fixedVariables e.variableNames))) ∧
    ∀ middle pattern : Expr, middle.IsOperand → pattern.IsOperand → middle.FlatTemplates →
      pattern.FlatTemplates → middle.Composes pattern → e.isInstanceOf middle = .ok true →
        middle.isInstanceOf pattern = .ok true → e.isInstanceOf pattern = .ok true :=
  ⟨isInstanceOf_self operand, fun _ _ => isInstanceOf_trans operand⟩

/-- A sum of two terms is a sum of any, written in one name, and so it is in another one. -/
theorem instance_test_laws_of_sum :
    (variadicTrain "+" (var "p")).isInstanceOf (variadicTrain "+" (var "p")) = .ok true ∧
      (train "+" [var "x", var "y"]).isInstanceOf (variadicTrain "+" (var "a")) = .ok true := by
  have subject : (train "+" [var "x", var "y"]).IsOperand := ⟨by decide, rfl⟩
  have middle : (variadicTrain "+" (var "p")).IsOperand := ⟨by decide, rfl⟩
  have pattern : (variadicTrain "+" (var "a")).IsOperand := ⟨by decide, rfl⟩
  have composes : (variadicTrain "+" (var "p")).Composes (variadicTrain "+" (var "a")) :=
    Or.inr ⟨by decide, Or.inr ⟨by decide, Separate.of_no_underscore (by decide) (by decide)⟩⟩
  constructor
  · rw [(instance_test_laws _ middle).1 (by decide)]
    exact congrArg Except.ok (by decide)
  · exact (instance_test_laws _ subject).2 _ _ middle pattern (by decide) (by decide) composes
      (by decide +kernel) (by decide +kernel)

/-- Neither is a sum of multiples an instance of itself, nor is an instance of an instance always an
instance: a name may be that of a copy. -/
theorem instance_test_not_preorder :
    let multiples := variadicTrain "+" (binary "*" (var "x") (var "a"))
    let subject := call "f" [train "+" [var "x", var "y", var "w"], var "z"]
    let middle := call "f" [variadicTrain "+" (var "p"), var "q"]
    let pattern := call "f" [variadicTrain "+" (var "a"), var "a_2"]
    multiples.isInstanceOf multiples = .ok false ∧
      subject.isInstanceOf middle = .ok true ∧ middle.isInstanceOf pattern = .ok true ∧
      subject.isInstanceOf pattern = .ok false := by
  decide +kernel

end Stepwise.Expr
