import Stepwise.Proofs.Matching.Found
import Stepwise.Proofs.Matching.Values

/-!
Two trees that match each other. Wherever one of them has a variadic train the other has a train of
one term, so the template has to be a variable and the copies are counted as one.
-/

namespace Stepwise.Expr

def LoneTemplates (e : Expr) : Prop :=
  e.allNodes (fun kind _ children => kind = .variadic → ∀ child ∈ children, child.isVar = true) =
    true

instance (e : Expr) : Decidable e.LoneTemplates := inferInstanceAs (Decidable (_ = true))

theorem loneTemplates_node (kind : Kind) (symbol : String) (children : List Expr) :
    (node kind symbol children).LoneTemplates ↔
      (kind = .variadic → ∀ child ∈ children, child.isVar = true) ∧
        ∀ child ∈ children, child.LoneTemplates := by
  rw [LoneTemplates, allNodes_node, decide_eq_true_iff]
  rfl

theorem LoneTemplates.child {kind : Kind} {symbol : String} {children : List Expr}
    (lone : (node kind symbol children).LoneTemplates) {child : Expr} (member : child ∈ children) :
    child.LoneTemplates :=
  ((loneTemplates_node _ _ _).mp lone).2 child member

theorem isVar_iff (e : Expr) : e.isVar = true ↔ e.kind = .var := by
  simp [isVar]

theorem WellShaped.eq_var {e : Expr} (shaped : e.WellShaped) (isVar : e.isVar = true) :
    ∃ name, e = var name := by
  obtain ⟨kind, name, children⟩ := e
  obtain rfl : kind = .var := (isVar_iff _).mp isVar
  obtain rfl := shaped.children_eq_nil (Or.inr rfl)
  exact ⟨name, rfl⟩

theorem loneTemplates_var (name : String) : (var name).LoneTemplates := by
  simp [var, loneTemplates_node]

theorem LoneTemplates.flat {e : Expr} (lone : e.LoneTemplates) (shaped : e.WellShaped) :
    e.FlatTemplates := by
  induction e using Expr.induction with
  | node kind symbol children each =>
      obtain ⟨here, below⟩ := (loneTemplates_node _ _ _).mp lone
      rw [flatTemplates_node]
      constructor
      · intro isMarker child member
        obtain ⟨name, rfl⟩ := (shaped.child member).eq_var (here isMarker child member)
        exact (plain_var name).2
      · exact fun child member => each child member (below child member) (shaped.child member)

theorem exists_of_matchEach {shared : List String} {patterns subjects : List Expr}
    {bindings extended : Bindings}
    (found : matchEach shared patterns bindings subjects = some extended) (index : Nat)
    {pattern subject : Expr} (isPattern : patterns[index]? = some pattern)
    (isSubject : subjects[index]? = some subject) :
    ∃ before after, matchNode shared pattern before subject = some after ∧
      after.IsPartOf extended := by
  induction subjects generalizing patterns bindings index with
  | nil => simp at isSubject
  | cons first rest ih =>
      cases patterns with
      | nil => simp at isPattern
      | cons head others =>
          rw [matchEach_cons] at found
          obtain ⟨middle, here, later⟩ := Option.bind_eq_some_iff.mp found
          cases index with
          | zero =>
              obtain rfl : head = pattern := by simpa using isPattern
              obtain rfl : first = subject := by simpa using isSubject
              exact ⟨bindings, middle, here, matchEach_isPartOf shared rest
                (fun s _ => matchNode_isPartOf shared s) others middle extended later⟩
          | succ index => exact ih later index (by simpa using isPattern) (by simpa using isSubject)

theorem isVar_of_match_marker {shared : List String} {pattern : Expr} {bindings extended : Bindings}
    {mark : String} {children : List Expr} (notMarker : pattern.isMarker = false)
    (found : matchNode shared pattern bindings (node .variadic mark children) = some extended) :
    pattern.isVar = true := by
  rcases matchNode_cases found with ⟨name, parts, rfl, _⟩ | ⟨_, _, isConst, _⟩ |
    ⟨_, _, _, _, isTrain, _⟩ | ⟨patterns, rfl, _⟩
  · rfl
  · simp at isConst
  · simp at isTrain
  · simp [isMarker] at notMarker

theorem isVar_of_match_var {shared : List String} {pattern : Expr} {bindings extended : Bindings}
    {name : String} {children : List Expr}
    (found : matchNode shared pattern bindings (node .var name children) = some extended) :
    pattern.isVar = true := by
  rcases matchNode_cases found with ⟨_, parts, rfl, _⟩ | ⟨_, _, isConst, _⟩ |
    ⟨_, _, _, _, isTrain, _⟩ | ⟨_, _, notVar, _⟩
  · rfl
  · simp at isConst
  · simp at isTrain
  · simp at notVar

theorem isVar_rename (names : String → String) (e : Expr) : (e.rename names).isVar = e.isVar := by
  obtain ⟨kind, symbol, children⟩ := e
  by_cases isVariable : kind = .var
  · subst isVariable
    rw [rename_var]
    rfl
  · rw [rename_node _ _ _ _ isVariable]
    rfl

/-- Under a match both ways, templates are lone, and one copy is counted if any. -/
def MatchedOnce (pattern : Expr) (bindings : Bindings) : Prop :=
  pattern.LoneTemplates ∧
    (pattern.HasVariadicTrain → bindings.find? ellipsis = some (const (toString 1)))

theorem matchedOnce_of_isVar {pattern : Expr} (shaped : pattern.WellShaped)
    (isVar : pattern.isVar = true) (bindings : Bindings) : pattern.MatchedOnce bindings := by
  obtain ⟨name, rfl⟩ := shaped.eq_var isVar
  have plain : ¬(var name).HasVariadicTrain := by
    simp [var, hasVariadicTrain_node, isVariadicTrain, template?]
  exact ⟨loneTemplates_var name, fun variadic => absurd variadic plain⟩

theorem MatchedOnce.of_isPartOf {pattern : Expr} {part whole : Bindings}
    (once : pattern.MatchedOnce part) (within : part.IsPartOf whole) :
    pattern.MatchedOnce whole :=
  ⟨once.1, fun variadic => within _ _ (once.2 variadic)⟩

theorem matchedOnce_node {kind : Kind} {symbol : String} {children : List Expr}
    {bindings : Bindings} (notMarker : kind ≠ .variadic)
    (plain : (node kind symbol children).template? = none)
    (each : ∀ child ∈ children, child.MatchedOnce bindings) :
    (node kind symbol children).MatchedOnce bindings := by
  constructor
  · rw [loneTemplates_node]
    exact ⟨fun isMarker => absurd isMarker notMarker, fun child member => (each child member).1⟩
  · intro variadic
    rcases (hasVariadicTrain_node _ _ _).mp variadic with here | ⟨child, member, below⟩
    · simp [isVariadicTrain, plain] at here
    · exact (each child member).2 below

theorem matchedOnce_variadicTrain {shared others : List String} {symbol mark : String}
    {template : Expr} {children : List Expr} {counted bindings extended before after : Bindings}
    (shaped : (node .train symbol [node .variadic mark [template]]).WellShaped)
    (count : bindings.extend? ellipsis (const (toString children.length)) = some counted)
    (forth : matchEach shared (copies shared template children.length) counted children =
      some extended)
    (back : matchNode others (node .train symbol children) before
      (node .train symbol [node .variadic mark [template]]) = some after) :
    (node .train symbol [node .variadic mark [template]]).MatchedOnce extended := by
  obtain ⟨inner, same, templateShaped, notMarker⟩ :=
    (shaped.child (List.mem_singleton_self _)).marker
  obtain rfl := List.singleton_inj.mp same
  have single : ∃ term, children = [term] ∧ (term.isMarker = true ∨ term.isVar = true) := by
    rcases matchNode_cases back with ⟨_, _, isVar, _⟩ | ⟨_, _, isConst, _⟩ |
      ⟨otherMark, other, _, isTrain, _⟩ | ⟨patterns, isNode, _, _, plain, lengths, inside⟩
    · simp at isVar
    · simp at isConst
    · obtain ⟨_, _, rfl⟩ := node.inj isTrain
      exact ⟨_, rfl, Or.inl rfl⟩
    · obtain ⟨_, _, rfl⟩ := node.inj isNode
      obtain ⟨term, rfl⟩ := List.length_eq_one_iff.mp lengths
      refine ⟨term, rfl, ?_⟩
      obtain ⟨start, finish, found, _⟩ := exists_of_matchEach inside 0 rfl rfl
      by_cases marks : term.isMarker = true
      · exact Or.inl marks
      · exact Or.inr (isVar_of_match_marker (Bool.eq_false_iff.mpr marks) found)
  obtain ⟨term, rfl, markerOrVar⟩ := single
  have isVar : template.isVar = true := by
    have copy : (copies shared template 1)[0]? =
        some (template.rename (copyName shared ((0 + 1 : Nat) : Int))) := by
      simp [copies_eq_map]
    obtain ⟨start, finish, found, _⟩ := exists_of_matchEach forth 0 copy rfl
    rw [← isVar_rename (copyName shared ((0 + 1 : Nat) : Int))]
    obtain ⟨kind, name, parts⟩ := term
    rcases markerOrVar with marks | isVariable
    · obtain rfl : kind = .variadic := of_decide_eq_true marks
      exact isVar_of_match_marker (by rw [isMarker_rename, notMarker]) found
    · obtain rfl : kind = .var := of_decide_eq_true isVariable
      exact isVar_of_match_var found
  constructor
  · obtain ⟨name, rfl⟩ := templateShaped.eq_var isVar
    simp [loneTemplates_node, loneTemplates_var, isVar]
  · intro _
    exact matchEach_isPartOf shared _ (fun s _ => matchNode_isPartOf shared s) _ _ _ forth _ _
      (Bindings.find?_of_extend? count)

theorem matchedOnce_of_mutual {subject : Expr} (subjectShaped : subject.WellShaped) :
    ∀ {pattern : Expr} {shared others : List String} {bindings extended before after : Bindings},
      pattern.WellShaped → pattern.isMarker = false →
        matchNode shared pattern bindings subject = some extended →
          matchNode others subject before pattern = some after → pattern.MatchedOnce extended := by
  induction subject using Expr.induction with
  | node kind symbol children each =>
      intro pattern shared others bindings extended before after shaped root forth back
      rcases matchNode_cases forth with ⟨name, parts, rfl, _⟩ | ⟨parts, rfl, _, rfl⟩ |
        ⟨mark, template, counted, rfl, rfl, count, inside⟩ |
        ⟨patterns, rfl, notVar, notConst, plain, lengths, inside⟩
      · exact matchedOnce_of_isVar shaped rfl _
      · obtain rfl := shaped.children_eq_nil (Or.inl rfl)
        exact matchedOnce_node (by decide) rfl (by simp)
      · exact matchedOnce_variadicTrain shaped count inside back
      · have notMarker : kind ≠ .variadic := of_decide_eq_false root
        refine matchedOnce_node notMarker plain ?_
        intro part member
        obtain ⟨index, isPart⟩ := List.mem_iff_getElem?.mp member
        have bound : index < children.length := by
          rw [← lengths]
          exact (List.getElem?_eq_some_iff.mp isPart).1
        have isChild : children[index]? = some children[index] := List.getElem?_eq_getElem bound
        have partShaped := shaped.child member
        have partRoot := shaped.child_isMarker_eq_false plain member
        obtain ⟨start, middle, found, within⟩ := exists_of_matchEach inside index isPart isChild
        refine MatchedOnce.of_isPartOf ?_ within
        rcases matchNode_cases back with ⟨_, _, isVar, _⟩ | ⟨_, isConst, _⟩ |
          ⟨otherMark, other, _, isTrain, _⟩ | ⟨terms, same, _, _, _, _, insideBack⟩
        · exact absurd (node.inj isVar).1 notVar
        · exact absurd (node.inj isConst).1 notConst
        · -- The only term of the train is matched with a marker.
          obtain ⟨_, _, rfl⟩ := node.inj isTrain
          obtain rfl : index = 0 := by simpa using bound
          exact matchedOnce_of_isVar partShaped (isVar_of_match_marker partRoot found) _
        · obtain ⟨_, _, rfl⟩ := node.inj same
          obtain ⟨_, _, foundBack, _⟩ := exists_of_matchEach insideBack index isChild isPart
          exact each _ (List.getElem_mem bound) (subjectShaped.child (List.getElem_mem bound))
            partShaped partRoot found foundBack

end Stepwise.Expr
