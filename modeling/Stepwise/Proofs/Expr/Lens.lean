import Stepwise.Proofs.Expr.Selection

/-!
Reading and replacing at an address. What is put somewhere is read there; putting back what was read
changes nothing, and of two replacements at one place the later one remains. Everything beside the
place reads as before, and the nodes above it keep their kind, symbol and number of children. A pair
of terms is replaced by replacing the train that they stand in.
-/

namespace Stepwise

namespace Attempt

variable {α β : Type}

def FailsAs (attempt : Attempt α) (name : String) : Prop :=
  ∃ cause, attempt = .error (.step cause) ∧ cause.name = name

theorem failsAs_stepFault (cause : StepFault) :
    (stepFault cause : Attempt α).FailsAs cause.name := ⟨cause, rfl, rfl⟩

theorem FailsAs.bind {attempt : Attempt α} {name : String} (fails : attempt.FailsAs name)
    (next : α → Attempt β) : (attempt >>= next).FailsAs name := by
  obtain ⟨cause, rfl, named⟩ := fails
  exact ⟨cause, rfl, named⟩

theorem FailsAs.ne_ok {attempt : Attempt α} {name : String} (fails : attempt.FailsAs name)
    (value : α) : attempt ≠ .ok value := by
  obtain ⟨cause, rfl, _⟩ := fails
  exact stepFault_ne_ok cause value

/-- The attempts yield the same, or fail with faults of one class. -/
def SameOutcome (first second : Attempt α) : Prop :=
  (∀ value, first = .ok value ↔ second = .ok value) ∧
    ∀ name, first.FailsAs name ↔ second.FailsAs name

theorem sameOutcome_of_eq {first second : Attempt α} (same : first = second) :
    first.SameOutcome second := by
  subst same
  exact ⟨fun _ => Iff.rfl, fun _ => Iff.rfl⟩

theorem sameOutcome_of_failsAs {first second : Attempt α} {name : String}
    (here : first.FailsAs name) (there : second.FailsAs name) : first.SameOutcome second := by
  refine ⟨fun value => iff_of_false (here.ne_ok value) (there.ne_ok value), fun other => ?_⟩
  obtain ⟨cause, rfl, rfl⟩ := here
  obtain ⟨another, rfl, named⟩ := there
  simp [FailsAs, named]

end Attempt

namespace Expr

section

variable {e new result : Expr} {path : List Int}

theorem withChildren_set {kind : Kind} {symbol : String} {children : List Expr}
    (shaped : (node kind symbol children).WellShaped) {place : Nat} {child inner : Expr}
    (known : children[place]? = some child)
    (marks : inner.isMarker = true → child.isMarker = true) :
    (node kind symbol children).withChildren (children.set place inner) =
      .ok (node kind symbol (children.set place inner)) := by
  obtain ⟨count, alone⟩ := (shapeFault?_eq_none_iff _ _).mp ((wellShaped_node _ _ _).mp shaped).1
  have fits : shapeFault? kind (children.set place inner) = none := by
    rw [shapeFault?_eq_none_iff, List.length_set]
    refine ⟨count, fun part member isMarker => ?_⟩
    rcases List.mem_or_eq_of_mem_set member with old | rfl
    · exact alone part old isMarker
    · exact alone child (List.mem_of_getElem? known) (marks isMarker)
  exact build_of_shape fits symbol

theorem replace_below {new result : Expr} {index : Int} {path : List Int} {pair : Option Int} :
    e.replace new ⟨index :: path, pair⟩ = .ok result ↔
      ∃ (place : Nat) (child inner : Expr), index = place ∧ e.children[place]? = some child ∧
        child.replace new ⟨path, pair⟩ = .ok inner ∧
        e.withChildren (e.children.set place inner) = .ok result := by
  rw [replace_cons]
  constructor
  · rintro ⟨child, known, inner, below, rebuilt⟩
    obtain ⟨place, rfl, known⟩ := childAt?_eq_some_iff.mp known
    exact ⟨place, child, inner, rfl, known, below, rebuilt⟩
  · rintro ⟨place, child, inner, rfl, known, below, rebuilt⟩
    exact ⟨child, childAt?_eq_some_iff.mpr ⟨place, rfl, known⟩, inner, below, rebuilt⟩

theorem nodeAt_below {target : Expr} {index : Int} :
    e.nodeAt (index :: path) = .ok target ↔
      ∃ (place : Nat) (child : Expr), index = place ∧ e.children[place]? = some child ∧
        child.nodeAt path = .ok target := by
  rw [nodeAt_cons]
  constructor
  · rintro ⟨child, known, below⟩
    obtain ⟨place, rfl, known⟩ := childAt?_eq_some_iff.mp known
    exact ⟨place, child, rfl, known, below⟩
  · rintro ⟨place, child, rfl, known, below⟩
    exact ⟨child, childAt?_eq_some_iff.mpr ⟨place, rfl, known⟩, below⟩

theorem getElem?_set_known {children : List Expr} {place : Nat} {child : Expr}
    (known : children[place]? = some child) (inner : Expr) :
    (children.set place inner)[place]? = some inner := by
  rw [List.getElem?_set_self (List.getElem?_eq_some_iff.mp known).1]

theorem replace_append {rest : List Int} {pair : Option Int} :
    e.replace new ⟨path ++ rest, pair⟩ = .ok result ↔
      ∃ part inner, e.nodeAt path = .ok part ∧ part.replace new ⟨rest, pair⟩ = .ok inner ∧
        e.replace inner (.ofPath path) = .ok result := by
  induction path generalizing e result with
  | nil =>
      constructor
      · intro replaced
        exact ⟨e, result, rfl, replaced, rfl⟩
      · rintro ⟨part, inner, reached, replaced, put⟩
        obtain rfl := Except.ok.inj reached
        obtain rfl := Except.ok.inj put
        exact replaced
  | cons index path ih =>
      rw [List.cons_append, replace_below, Address.ofPath]
      constructor
      · rintro ⟨place, child, image, rfl, known, below, rebuilt⟩
        obtain ⟨part, inner, reached, replaced, put⟩ := ih.mp below
        exact ⟨part, inner, nodeAt_below.mpr ⟨place, child, rfl, known, reached⟩, replaced,
          replace_below.mpr ⟨place, child, image, rfl, known, put, rebuilt⟩⟩
      · rintro ⟨part, inner, reached, replaced, put⟩
        obtain ⟨place, child, rfl, known, reachedBelow⟩ := nodeAt_below.mp reached
        obtain ⟨other, sameChild, image, samePlace, knownToo, below, rebuilt⟩ := replace_below.mp put
        obtain rfl := Int.ofNat.inj samePlace
        obtain rfl := Option.some.inj (known.symm.trans knownToo)
        exact ⟨place, child, image, rfl, known,
          ih.mpr ⟨part, inner, reachedBelow, replaced, below⟩, rebuilt⟩

theorem replace_pair_iff {index : Int} :
    e.replace new ⟨path, some index⟩ = .ok result ↔
      ∃ part inner, e.nodeAt path = .ok part ∧ part.replacePair new index = .ok inner ∧
        e.replace inner (.ofPath path) = .ok result := by
  have whole := @replace_append e new result path [] (some index)
  rwa [List.append_nil] at whole

/-! The laws, for a node. -/

theorem exists_replace_node (shaped : e.WellShaped) {part : Expr}
    (reached : e.nodeAt path = .ok part) (new : Expr)
    (marks : new.isMarker = true → part.isMarker = true) :
    ∃ result, e.replace new (.ofPath path) = .ok result ∧
      (result.isMarker = true → e.isMarker = true) := by
  induction path generalizing e with
  | nil =>
      obtain rfl := Except.ok.inj reached
      exact ⟨new, rfl, marks⟩
  | cons index path ih =>
      obtain ⟨place, child, rfl, known, below⟩ := nodeAt_below.mp reached
      obtain ⟨kind, symbol, children⟩ := e
      obtain ⟨inner, put, root⟩ := ih (shaped.child (List.mem_of_getElem? known)) below
      have rebuilt := withChildren_set shaped known root
      exact ⟨_, replace_below.mpr ⟨place, child, inner, rfl, known, put, rebuilt⟩, id⟩

theorem nodeAt_replace (replaced : e.replace new (.ofPath path) = .ok result) :
    result.nodeAt path = .ok new := by
  induction path generalizing e result with
  | nil => exact replaced.symm
  | cons index path ih =>
      obtain ⟨place, child, inner, rfl, known, below, rebuilt⟩ := replace_below.mp replaced
      obtain rfl := eq_of_build rebuilt
      exact nodeAt_below.mpr ⟨place, inner, rfl, getElem?_set_known known inner, ih below⟩

theorem replace_nodeAt (shaped : e.WellShaped) {part : Expr} (reached : e.nodeAt path = .ok part) :
    e.replace part (.ofPath path) = .ok e := by
  induction path generalizing e with
  | nil => exact reached.symm
  | cons index path ih =>
      obtain ⟨place, child, rfl, known, below⟩ := nodeAt_below.mp reached
      obtain ⟨kind, symbol, children⟩ := e
      have put := ih (shaped.child (List.mem_of_getElem? known)) below
      have same : children.set place child = children := by
        obtain ⟨bound, rfl⟩ := List.getElem?_eq_some_iff.mp known
        exact List.set_getElem_self bound
      have rebuilt := @withChildren_set kind symbol children shaped place child child known id
      rw [same] at rebuilt
      refine replace_below.mpr ⟨place, child, child, rfl, known, put, ?_⟩
      rw [children_node, same, rebuilt]

theorem replace_replace (replaced : e.replace new (.ofPath path) = .ok result) (other : Expr) :
    result.replace other (.ofPath path) = e.replace other (.ofPath path) := by
  induction path generalizing e result with
  | nil => rfl
  | cons index path ih =>
      obtain ⟨place, child, inner, rfl, known, below, rebuilt⟩ := replace_below.mp replaced
      obtain rfl := eq_of_build rebuilt
      have here : e.childAt? place = some child := childAt?_eq_some_iff.mpr ⟨place, rfl, known⟩
      have there : (node e.kind e.symbol (e.children.set place inner)).childAt? place = some inner :=
        childAt?_eq_some_iff.mpr ⟨place, rfl, getElem?_set_known known inner⟩
      have same : replaceFrom other none inner path = replaceFrom other none child path := ih below
      rw [replace, replace, Address.ofPath, replaceFrom, replaceFrom, here, there]
      dsimp only
      rw [same]
      simp only [withChildren, kind_node, symbol_node, children_node, Int.toNat_natCast,
        List.set_set]

theorem nodeAtFrom_failsAs (root : Expr) (depth : Nat)
    (absent : ∀ part, nodeAtFrom root depth e path ≠ .ok part) :
    (nodeAtFrom root depth e path).FailsAs "InvalidAddress" := by
  induction path generalizing e depth with
  | nil => exact absurd rfl (absent e)
  | cons index path ih =>
      rw [nodeAtFrom] at absent ⊢
      split
      · rename_i child known
        rw [known] at absent
        exact ih (depth + 1) absent
      · exact Attempt.failsAs_stepFault _

theorem replace_failsAs_of_absent (pair : Option Int)
    (absent : ∀ part, e.nodeAt path ≠ .ok part) :
    (e.replace new ⟨path, pair⟩).FailsAs "InvalidAddress" := by
  induction path generalizing e with
  | nil => exact absurd rfl (absent e)
  | cons index path ih =>
      rw [replace, replaceFrom]
      split
      · exact Attempt.failsAs_stepFault _
      · rename_i child known
        refine Attempt.FailsAs.bind (ih fun part reached => ?_) _
        exact absent part (nodeAt_cons.mpr ⟨child, known, reached⟩)

theorem replace_failsAs {part : Expr} {pair : Option Int} {name : String}
    (reached : e.nodeAt path = .ok part) (fails : (part.replace new ⟨[], pair⟩).FailsAs name) :
    (e.replace new ⟨path, pair⟩).FailsAs name := by
  induction path generalizing e with
  | nil =>
      obtain rfl := Except.ok.inj reached
      exact fails
  | cons index path ih =>
      obtain ⟨child, known, below⟩ := nodeAt_cons.mp reached
      rw [replace, replaceFrom, known]
      exact (ih below).bind _

theorem pair_outcomes (shaped : e.WellShaped) (operand : new.isMarker = false) (index : Int) :
    (∃ symbol before left right after, index = before.length ∧
        e = train symbol (before ++ left :: right :: after) ∧
        e.pairAt index = .ok (binary symbol left right) ∧
        e.replacePair new index = .ok (train symbol (before ++ new :: after))) ∨
      ∃ name ∈ ["InvalidAddress", "NotAnAssocTrain"],
        (e.pairAt index).FailsAs name ∧ (e.replacePair new index).FailsAs name := by
  obtain ⟨kind, symbol, terms⟩ := e
  rw [pairAt, replacePair, children_node]
  split
  · rename_i isTrain
    have kindEq : kind = .train := of_decide_eq_true isTrain
    subst kindEq
    split
    · exact Or.inr ⟨"InvalidAddress", by simp, Attempt.failsAs_stepFault (.noPair index),
        Attempt.failsAs_stepFault (.noPair index)⟩
    · rename_i within
      obtain ⟨place, rfl⟩ := Int.eq_ofNat_of_zero_le (by omega : 0 ≤ index)
      have bound : place + 1 < terms.length := by omega
      have first := List.getElem?_eq_getElem (by omega : place < terms.length)
      have second := List.getElem?_eq_getElem bound
      have single {term : Expr} (member : term ∈ terms) : term.isMarker = false :=
        shaped.term_isMarker_eq_false (by omega) member
      have parts : terms = terms.take place ++ terms[place] :: terms[place + 1] ::
          terms.drop (place + 2) := by
        rw [← List.drop_eq_getElem_cons bound, ← List.drop_eq_getElem_cons (by omega),
          List.take_append_drop]
      have fits : shapeFault? .train (terms.take place ++ new :: terms.drop (place + 2)) = none := by
        rw [shapeFault?_eq_none_iff]
        refine ⟨by simp [countFault?], fun term member marks => ?_⟩
        simp only [List.mem_append, List.mem_cons] at member
        rcases member with inBefore | rfl | inAfter
        · simp [single (List.mem_of_mem_take inBefore)] at marks
        · simp [operand] at marks
        · simp [single (List.mem_of_mem_drop inAfter)] at marks
      refine Or.inl ⟨symbol, terms.take place, terms[place], terms[place + 1],
        terms.drop (place + 2), ?_, congrArg (train symbol) parts, ?_, ?_⟩
      · rw [List.length_take, Nat.min_eq_left (by omega)]
      · rw [Int.toNat_natCast, take_two first second]
        exact build_two (Or.inl rfl) symbol (single (List.getElem_mem _))
          (single (List.getElem_mem _))
      · rw [Int.toNat_natCast]
        exact build_of_shape fits symbol
  · exact Or.inr ⟨"NotAnAssocTrain", by simp, Attempt.failsAs_stepFault (.notATrain _),
      Attempt.failsAs_stepFault (.notATrain _)⟩

theorem nodeAt_term (symbol : String) (before : List Expr) (term : Expr) (after : List Expr) :
    (train symbol (before ++ term :: after)).nodeAt [(before.length : Int)] = .ok term := by
  have known : (before ++ term :: after)[before.length]? = some term := by simp
  exact nodeAt_below.mpr ⟨before.length, term, rfl, known, rfl⟩

theorem replace_term {symbol : String} {before after : List Expr} {term : Expr}
    (shaped : (train symbol (before ++ term :: after)).WellShaped)
    (operand : new.isMarker = false) :
    (train symbol (before ++ term :: after)).replace new (.ofPath [(before.length : Int)]) =
      .ok (train symbol (before ++ new :: after)) := by
  have known : (before ++ term :: after)[before.length]? = some term := by simp
  have put : (before ++ term :: after).set before.length new = before ++ new :: after := by simp
  have marks : new.isMarker = true → term.isMarker = true := by simp [operand]
  have rebuilt := withChildren_set shaped known marks
  rw [put] at rebuilt
  refine replace_below.mpr ⟨before.length, term, new, rfl, known, rfl, ?_⟩
  rwa [train, children_node, put]

/-! What stays. -/

def Apart (p q : List Int) : Prop := ¬p <+: q ∧ ¬q <+: p

theorem nodeAt_beside (replaced : e.replace new (.ofPath path) = .ok result) {other : List Int}
    (apart : Apart path other) (part : Expr) :
    result.nodeAt other = .ok part ↔ e.nodeAt other = .ok part := by
  induction path generalizing e result other with
  | nil => exact absurd List.nil_prefix apart.1
  | cons index path ih =>
      obtain ⟨place, child, inner, rfl, known, below, rebuilt⟩ := replace_below.mp replaced
      obtain rfl := eq_of_build rebuilt
      cases other with
      | nil => exact absurd List.nil_prefix apart.2
      | cons step others =>
          simp only [nodeAt_below, children_node]
          refine exists_congr fun position => ?_
          by_cases same : place = position
          · -- The paths part further below.
            subst same
            constructor
            · rintro ⟨_, rfl, present, found⟩
              obtain rfl := Option.some.inj ((getElem?_set_known known inner).symm.trans present)
              refine ⟨child, rfl, known, (ih below ⟨?_, ?_⟩).mp found⟩
              · exact fun inside => apart.1 (List.cons_prefix_cons.mpr ⟨rfl, inside⟩)
              · exact fun inside => apart.2 (List.cons_prefix_cons.mpr ⟨rfl, inside⟩)
            · rintro ⟨_, rfl, present, found⟩
              obtain rfl := Option.some.inj (known.symm.trans present)
              refine ⟨inner, rfl, getElem?_set_known known inner, (ih below ⟨?_, ?_⟩).mpr found⟩
              · exact fun inside => apart.1 (List.cons_prefix_cons.mpr ⟨rfl, inside⟩)
              · exact fun inside => apart.2 (List.cons_prefix_cons.mpr ⟨rfl, inside⟩)
          · rw [List.getElem?_set_ne same]

theorem nodeAt_above (replaced : e.replace new (.ofPath path) = .ok result) {outer rest : List Int}
    (below : outer ++ rest = path) (proper : rest ≠ []) :
    ∃ before after, e.nodeAt outer = .ok before ∧ result.nodeAt outer = .ok after ∧
      after.kind = before.kind ∧ after.symbol = before.symbol ∧
      after.children.length = before.children.length := by
  subst below
  obtain ⟨before, after, reached, put, whole⟩ := replace_append.mp replaced
  refine ⟨before, after, reached, nodeAt_replace whole, ?_⟩
  obtain ⟨index, more, rfl⟩ := List.exists_cons_of_ne_nil proper
  obtain ⟨place, child, inner, rfl, known, _, rebuilt⟩ := replace_below.mp put
  obtain rfl := eq_of_build rebuilt
  exact ⟨rfl, rfl, List.length_set⟩

/-- Outside the path everything is as it was. -/
structure SameAround (path : List Int) (e result : Expr) : Prop where
  beside : ∀ address : Address, Apart path address.path →
    (result.resolve address).SameOutcome (e.resolve address)
  above : ∀ outer rest, outer ++ rest = path → rest ≠ [] →
    ∃ before after, e.nodeAt outer = .ok before ∧ result.nodeAt outer = .ok after ∧
      after.kind = before.kind ∧ after.symbol = before.symbol ∧
      after.children.length = before.children.length

theorem sameAround_of_replace {pair : Option Int}
    (replaced : e.replace new ⟨path, pair⟩ = .ok result) : SameAround path e result := by
  have within : ∃ inner, e.replace inner (.ofPath path) = .ok result := by
    rw [← List.append_nil path] at replaced
    obtain ⟨_, inner, _, _, put⟩ := replace_append.mp replaced
    exact ⟨inner, put⟩
  obtain ⟨inner, put⟩ := within
  refine ⟨fun address apart => ?_, fun outer rest below proper => nodeAt_above put below proper⟩
  have same := nodeAt_beside put apart
  by_cases present : ∃ part, e.nodeAt address.path = .ok part
  · obtain ⟨part, reached⟩ := present
    refine Attempt.sameOutcome_of_eq ?_
    rw [resolve, resolve, reached, (same part).mpr reached]
  · have absent (part : Expr) : e.nodeAt address.path ≠ .ok part := fun reached =>
      present ⟨part, reached⟩
    have still (part : Expr) : result.nodeAt address.path ≠ .ok part := fun reached =>
      absent part ((same part).mp reached)
    exact Attempt.sameOutcome_of_failsAs ((nodeAtFrom_failsAs result 0 still).bind _)
      ((nodeAtFrom_failsAs e 0 absent).bind _)

theorem WellShaped.nodeAt {part : Expr} (shaped : e.WellShaped)
    (reached : e.nodeAt path = .ok part) : part.WellShaped := by
  induction path generalizing e with
  | nil => exact Except.ok.inj reached ▸ shaped
  | cons index path ih =>
      obtain ⟨place, child, rfl, known, below⟩ := nodeAt_below.mp reached
      obtain ⟨kind, symbol, children⟩ := e
      exact ih (shaped.child (List.mem_of_getElem? known)) below

theorem replace_pair_outcomes (shaped : e.WellShaped) (operand : new.isMarker = false)
    {part : Expr} (reached : e.nodeAt path = .ok part) (index : Int) :
    (∃ symbol before left right after result, index = before.length ∧
        part = train symbol (before ++ left :: right :: after) ∧
        e.resolve ⟨path, some index⟩ = .ok (binary symbol left right) ∧
        e.replace new ⟨path, some index⟩ = .ok result ∧
        e.replace (train symbol (before ++ new :: after)) (.ofPath path) = .ok result) ∨
      ∃ name ∈ ["InvalidAddress", "NotAnAssocTrain"],
        (e.resolve ⟨path, some index⟩).FailsAs name ∧
        (e.replace new ⟨path, some index⟩).FailsAs name := by
  have selects : e.resolve ⟨path, some index⟩ = part.pairAt index := by
    rw [resolve, reached]
    rfl
  rw [selects]
  rcases pair_outcomes (shaped.nodeAt reached) operand index with
    ⟨symbol, before, left, right, after, same, parts, found, put⟩ | ⟨name, known, fails, refuses⟩
  · obtain ⟨result, replaced, _⟩ := exists_replace_node shaped reached
      (train symbol (before ++ new :: after)) fun marks => nomatch marks
    exact Or.inl ⟨symbol, before, left, right, after, result, same, parts, found,
      replace_pair_iff.mpr ⟨part, _, reached, put, replaced⟩, replaced⟩
  · exact Or.inr ⟨name, known, fails, replace_failsAs reached refuses⟩

theorem resolve_replace_outcomes (shaped : e.WellShaped) (operand : new.isMarker = false)
    (address : Address) :
    (∃ target result, e.resolve address = .ok target ∧ e.replace new address = .ok result) ∨
      ∃ name ∈ ["InvalidAddress", "NotAnAssocTrain"],
        (e.resolve address).FailsAs name ∧ (e.replace new address).FailsAs name := by
  obtain ⟨path, pair⟩ := address
  by_cases present : ∃ part, e.nodeAt path = .ok part
  · obtain ⟨part, reached⟩ := present
    cases pair with
    | none =>
        obtain ⟨result, replaced, _⟩ := exists_replace_node shaped reached new (by simp [operand])
        exact Or.inl ⟨part, result, Attempt.bind_eq_ok.mpr ⟨part, reached, rfl⟩, replaced⟩
    | some index =>
        rcases replace_pair_outcomes shaped operand reached index with
          ⟨symbol, _, left, right, _, result, _, _, found, replaced, _⟩ | fails
        · exact Or.inl ⟨binary symbol left right, result, found, replaced⟩
        · exact Or.inr fails
  · have absent (part : Expr) : e.nodeAt path ≠ .ok part := fun reached => present ⟨part, reached⟩
    exact Or.inr ⟨"InvalidAddress", by simp, (nodeAtFrom_failsAs e 0 absent).bind _,
      replace_failsAs_of_absent pair absent⟩

structure NodeLaws (e new result : Expr) (path : List Int) : Prop where
  reads : result.resolve (.ofPath path) = .ok new
  putsBack : ∀ part, e.resolve (.ofPath path) = .ok part →
    e.replace part (.ofPath path) = .ok e ∧ result.replace part (.ofPath path) = .ok e
  overrides : ∀ other, result.replace other (.ofPath path) = e.replace other (.ofPath path)

theorem resolve_ofPath {target : Expr} :
    e.resolve (.ofPath path) = .ok target ↔ e.nodeAt path = .ok target := by
  rw [resolve, Attempt.bind_eq_ok]
  constructor
  · rintro ⟨part, reached, same⟩
    exact Except.ok.inj same ▸ reached
  · exact fun reached => ⟨target, reached, rfl⟩

theorem nodeLaws_of_replace (shaped : e.WellShaped)
    (replaced : e.replace new (.ofPath path) = .ok result) : NodeLaws e new result path where
  reads := resolve_ofPath.mpr (nodeAt_replace replaced)
  putsBack part found := by
    have back := replace_nodeAt shaped (resolve_ofPath.mp found)
    exact ⟨back, (replace_replace replaced part).trans back⟩
  overrides := replace_replace replaced

end

/-- Reading and replacing at an address obey the laws of a lens. What is put in is no marker; trees
of the wrong shape, which cannot be built, are left out. -/
theorem replace_lens_laws (e new : Expr) (shaped : e.WellShaped) (operand : new.isMarker = false)
    (address : Address) :
    ((∃ result, e.replace new address = .ok result) ↔
      ∃ target, e.resolve address = .ok target) ∧
    ((¬∃ target, e.resolve address = .ok target) →
      ∃ name ∈ ["InvalidAddress", "NotAnAssocTrain"],
        (e.resolve address).FailsAs name ∧ (e.replace new address).FailsAs name) ∧
    ∀ result, e.replace new address = .ok result →
      SameAround address.path e result ∧
      (address.pair = none → NodeLaws e new result address.path) ∧
      ∀ index, address.pair = some index →
        ∃ symbol before left right after, index = ((before.length : Nat) : Int) ∧
          e.nodeAt address.path = .ok (train symbol (before ++ left :: right :: after)) ∧
          result.nodeAt address.path = .ok (train symbol (before ++ new :: after)) := by
  have outcomes := resolve_replace_outcomes shaped operand address
  refine ⟨?_, ?_, fun result replaced => ⟨sameAround_of_replace replaced, ?_, ?_⟩⟩
  · rcases outcomes with ⟨target, result, found, put⟩ | ⟨_, _, fails, refuses⟩
    · exact iff_of_true ⟨result, put⟩ ⟨target, found⟩
    · exact iff_of_false (fun ⟨result, put⟩ => refuses.ne_ok result put)
        fun ⟨target, found⟩ => fails.ne_ok target found
  · intro absent
    rcases outcomes with ⟨target, _, found, _⟩ | fails
    · exact absurd ⟨target, found⟩ absent
    · exact fails
  · obtain ⟨path, pair⟩ := address
    rintro rfl
    exact nodeLaws_of_replace shaped replaced
  · obtain ⟨path, pair⟩ := address
    rintro index rfl
    obtain ⟨part, _, reached, _, _⟩ := replace_pair_iff.mp replaced
    rcases replace_pair_outcomes shaped operand reached index with
      ⟨symbol, before, left, right, after, other, same, rfl, _, replacedToo, put⟩ |
        ⟨_, _, _, refuses⟩
    · obtain rfl := Except.ok.inj (replaced.symm.trans replacedToo)
      exact ⟨symbol, before, left, right, after, same, reached, nodeAt_replace put⟩
    · exact absurd replaced (refuses.ne_ok result)

/-- The last two terms of a train inside a call become one. -/
theorem replace_lens_laws_pair :
    let e := call "f" [train "+" [var "a", var "b", var "c"], var "x"]
    let result := call "f" [train "+" [var "a", const "0"], var "x"]
    e.WellShaped ∧ (const "0").isMarker = false ∧
      e.replace (const "0") ⟨[0], some 1⟩ = .ok result ∧ SameAround [0] e result ∧
      ∃ symbol before left right after, (1 : Int) = ((before.length : Nat) : Int) ∧
        e.nodeAt [0] = .ok (train symbol (before ++ left :: right :: after)) ∧
        result.nodeAt [0] = .ok (train symbol (before ++ const "0" :: after)) := by
  obtain ⟨around, _, pair⟩ := (replace_lens_laws
    (call "f" [train "+" [var "a", var "b", var "c"], var "x"]) (const "0") (by decide) rfl
    ⟨[0], some 1⟩).2.2 (call "f" [train "+" [var "a", const "0"], var "x"]) rfl
  exact ⟨by decide, rfl, rfl, around, pair 1 rfl⟩

end Expr

end Stepwise
