import Stepwise.Proofs.Deduction.Settled
import Stepwise.Proofs.Matching.Search

/-!
Steps keep trees well shaped: what an address selects in a well shaped tree is well shaped, and so
are its instances, the trees that are grafted together from well shaped ones, and whatever an
equation or an implication yields.
-/

namespace Stepwise

/-- How the number of copies cannot be read, or is not one of copies. -/
inductive Bindings.Miscounts (bindings : Bindings) : Fault → Prop
  | unread {fault : Fault} : bindings.arity = .error fault → Miscounts bindings fault
  | few {count : Int} : bindings.arity = .ok (some count) → count < 1 →
      Miscounts bindings (.arity count)

namespace Expr

theorem wellShaped_of_build {kind : Kind} {symbol : String} {children : List Expr} {e : Expr}
    (built : build kind symbol children = .ok e) (each : ∀ child ∈ children, child.WellShaped) :
    e.WellShaped := by
  unfold build at built
  split at built
  · simp at built
  · rename_i fits
    obtain rfl := Except.ok.inj built
    exact (wellShaped_node _ _ _).mpr ⟨fits, each⟩

theorem isMarker_of_build {kind : Kind} (notTrain : kind ≠ .train) {symbol : String}
    {children : List Expr} {e : Expr} (built : build kind symbol children = .ok e) :
    ∀ child ∈ children, child.isMarker = false := by
  unfold build at built
  split at built
  · simp at built
  · rename_i fits
    intro child member
    rw [Bool.eq_false_iff]
    exact fun marks => notTrain (((shapeFault?_eq_none_iff _ _).mp fits).2 child member marks).1

theorem WellShaped.childAt? {e child : Expr} (shaped : e.WellShaped) {index : Int}
    (found : e.childAt? index = some child) : child.WellShaped := by
  obtain ⟨before, after, parts, _⟩ := childAt?_cases found
  obtain ⟨kind, symbol, children⟩ := e
  rw [children_node] at parts
  exact shaped.child (by simp [parts])

theorem WellShaped.resolve {e target : Expr} (shaped : e.WellShaped) {path : List Int}
    {pair : Option Int} (resolved : e.resolve ⟨path, pair⟩ = .ok target) : target.WellShaped := by
  induction path generalizing e with
  | nil =>
      cases pair with
      | none => exact Except.ok.inj resolved ▸ shaped
      | some index =>
          obtain ⟨kind, symbol, terms⟩ := e
          obtain ⟨rfl, place, left, right, rfl, first, second, rfl⟩ :=
            (pairAt_eq_ok_iff shaped).mp resolved
          have several := (List.getElem?_eq_some_iff.mp second).1
          have operand {term : Expr} (member : term ∈ terms) : term.IsOperand :=
            ⟨shaped.child member, shaped.term_isMarker_eq_false (by omega) member⟩
          refine (wellShaped_iff_of_plain rfl).mpr ⟨rfl, ?_⟩
          simp [operand (List.mem_of_getElem? first), operand (List.mem_of_getElem? second)]
  | cons index path ih =>
      obtain ⟨child, known, below⟩ := resolve_cons.mp resolved
      exact ih (shaped.childAt? known) below

theorem WellShaped.replacePair {e new result : Expr} (shaped : e.WellShaped)
    (newShaped : new.WellShaped) {index : Int} (replaced : e.replacePair new index = .ok result) :
    result.WellShaped := by
  obtain ⟨kind, symbol, terms⟩ := e
  unfold Expr.replacePair at replaced
  split at replaced
  · split at replaced
    · exact absurd replaced (Attempt.stepFault_ne_ok _ _)
    · refine wellShaped_of_build replaced ?_
      intro term member
      rcases List.mem_append.mp member with before | later
      · exact shaped.child (List.mem_of_mem_take before)
      · rcases List.mem_cons.mp later with rfl | after
        · exact newShaped
        · exact shaped.child (List.mem_of_mem_drop after)
  · exact absurd replaced (Attempt.stepFault_ne_ok _ _)

theorem WellShaped.replace {e new result : Expr} (shaped : e.WellShaped)
    (newShaped : new.WellShaped) {path : List Int} {pair : Option Int}
    (replaced : e.replace new ⟨path, pair⟩ = .ok result) : result.WellShaped := by
  induction path generalizing e result with
  | nil =>
      cases pair with
      | none => exact Except.ok.inj replaced ▸ newShaped
      | some index => exact shaped.replacePair newShaped replaced
  | cons index path ih =>
      obtain ⟨child, known, inner, below, rebuilt⟩ := replace_cons.mp replaced
      have innerShaped := ih (shaped.childAt? known) below
      obtain ⟨kind, symbol, children⟩ := e
      refine wellShaped_of_build rebuilt ?_
      intro part member
      rcases List.mem_or_eq_of_mem_set member with old | rfl
      · exact shaped.child old
      · exact innerShaped

/-! Instances. -/

theorem instantiateEach_ends {bindings : Bindings} {names : String → String} {P : Expr → Prop}
    {Q : Fault → Prop} {es : List Expr}
    (each : ∀ e ∈ es, (instantiateRenamed bindings names e).Ends P Q) :
    (instantiateEach bindings names es).Ends
      (fun images => images.length = es.length ∧ ∀ image ∈ images, P image) Q := by
  induction es with
  | nil =>
      rw [instantiateEach]
      exact ⟨rfl, by simp⟩
  | cons e es ih =>
      rw [instantiateEach]
      refine (each e (by simp)).bind fun first _ here => ?_
      refine (ih fun other member => each other (by simp [member])).bind fun others _ below => ?_
      exact ⟨congrArg Nat.succ below.1, List.forall_mem_cons.mpr ⟨here, below.2⟩⟩

/-- The children of an instance's node. Those of a variadic train are its marker's image, or, if it
is expanded, images of the template; those of any other node are images of the node's children. -/
inductive Assembles (bindings : Bindings) (P : Expr → Expr → Prop) : Expr → List Expr → Prop
  | plain {kind : Kind} {symbol : String} {children images : List Expr} (notVar : kind ≠ .var)
      (plain : (node kind symbol children).template? = none)
      (count : images.length = children.length)
      (each : ∀ image ∈ images, ∃ child ∈ children, P child image) :
      Assembles bindings P (node kind symbol children) images
  | kept {symbol mark : String} {template image : Expr} (unbound : bindings.arity = .ok none)
      (marker : P (node .variadic mark [template]) image) :
      Assembles bindings P (node .train symbol [node .variadic mark [template]]) [image]
  | expanded {symbol mark : String} {template : Expr} {images : List Expr}
      (count : bindings.arity = .ok (some (images.length : Int))) (positive : images ≠ [])
      (each : ∀ image ∈ images, P template image) :
      Assembles bindings P (node .train symbol [node .variadic mark [template]]) images

/-- What is known of a template and of the names in it, what then holds of an instance, and how
there can be none, if all of this passes between a node and its children. -/
structure InstanceInvariant (bindings : Bindings) (K : Expr → (String → String) → Prop)
    (P : Expr → Expr → Prop) (Q : Fault → Prop) : Prop where
  leaf {symbol : String} {names : String → String} : K (var symbol) names →
    P (var symbol) (bindings.toSubst (names symbol))
  child {kind : Kind} {symbol : String} {children : List Expr} {names : String → String} :
    (node kind symbol children).WellShaped → K (node kind symbol children) names →
      kind ≠ .var → (node kind symbol children).template? = none ∨ bindings.arity = .ok none →
        ∀ child ∈ children, K child names
  template {symbol mark : String} {template : Expr} {names : String → String} :
    (node .train symbol [node .variadic mark [template]]).WellShaped →
      K (node .train symbol [node .variadic mark [template]]) names → ∀ index,
        K template fun name => copyName bindings.keys index (names name)
  miscounted {symbol mark : String} {template : Expr} {names : String → String} :
    K (node .train symbol [node .variadic mark [template]]) names →
      ∀ fault, bindings.Miscounts fault → Q fault
  node {kind : Kind} {symbol : String} {children images : List Expr} {names : String → String} :
    (node kind symbol children).WellShaped → K (node kind symbol children) names →
      Assembles bindings P (node kind symbol children) images →
        (build kind symbol images).Ends (P (node kind symbol children)) Q

theorem instantiateRenamed_ends {bindings : Bindings} {K : Expr → (String → String) → Prop}
    {P : Expr → Expr → Prop} {Q : Fault → Prop}
    (invariant : InstanceInvariant bindings K P Q) {e : Expr} (shaped : e.WellShaped)
    {names : String → String} (known : K e names) :
    (instantiateRenamed bindings names e).Ends (P e) Q := by
  induction e using templateInduction generalizing names with
  | var symbol children =>
      obtain rfl := shaped.children_eq_nil (Or.inr rfl)
      rw [instantiateRenamed_var]
      exact invariant.leaf known
  | variadicTrain symbol mark template ih =>
      have markerShaped := shaped.child (List.mem_singleton_self _)
      have templateShaped := markerShaped.child (List.mem_singleton_self _)
      rw [instantiateRenamed]
      cases read : bindings.arity with
      | error fault => exact invariant.miscounted known fault (.unread read)
      | ok arity =>
          cases arity with
          | none =>
              have markerKnown := invariant.child shaped known (by decide) (Or.inr read) _
                (List.mem_singleton_self _)
              have templateKnown := invariant.child markerShaped markerKnown (by decide)
                (Or.inl rfl) _ (List.mem_singleton_self _)
              refine Attempt.Ends.bind (ih templateShaped templateKnown) fun image _ here => ?_
              have inMarker : Assembles bindings P (node .variadic mark [template]) [image] :=
                .plain (by decide) rfl rfl (by simpa using here)
              refine Attempt.Ends.bind (invariant.node markerShaped markerKnown inMarker) ?_
              intro marker _ above
              exact invariant.node shaped known (.kept read above)
          | some count =>
              change Attempt.Ends _ _ (if count < 1 then _ else _)
              split
              next few => exact invariant.miscounted known _ (.few read few)
              next enough =>
                refine (Attempt.ends_mapM fun index _ =>
                  ih templateShaped (invariant.template shaped known _)).bind ?_
                intro images _ holds
                have length : images.length = count.toNat := by rw [holds.1, List.length_range]
                refine invariant.node shaped known (.expanded ?_ ?_ holds.2)
                · rw [read, length, Int.toNat_of_nonneg (by omega)]
                · rintro rfl
                  rw [List.length_nil] at length
                  omega
  | other kind symbol children notVar plain each =>
      rw [instantiateRenamed_node _ _ _ _ _ notVar plain]
      refine (instantiateEach_ends (P := fun image => ∃ child ∈ children, P child image)
        fun child member => ?_).bind ?_
      · have childKnown := invariant.child shaped known notVar (Or.inl plain) child member
        exact (each child member (shaped.child member) childKnown).imp
          (fun _ _ holds => ⟨child, member, holds⟩) fun _ fails => fails
      · intro images _ holds
        exact invariant.node shaped known (.plain notVar plain holds.1 holds.2)

/-- What holds of the bound values and of the names that may remain, and passes from the children of
a node to the node, holds of an instance. Its markers are those of a train that is not expanded, and
one at the root. -/
theorem of_instantiateRenamed {P : Expr → Prop} (named : String → Prop) (marks : Prop)
    {bindings : Bindings} (values : bindings.AllValues P)
    (leaves : ∀ name, named name → P (var name))
    (copied : ∀ name index, named name → named (copyName bindings.keys index name))
    (unexpanded : bindings.arity = .ok none → marks)
    (nodes : ∀ kind symbol children, kind ≠ .var → (kind = .variadic → marks) →
      shapeFault? kind children = none → (∀ child ∈ children, P child) →
        P (node kind symbol children))
    {e : Expr} (shaped : e.WellShaped) (root : e.isMarker = true → marks)
    {names : String → String} (allowed : ∀ name ∈ e.occurrences false, named (names name)) :
    (instantiateRenamed bindings names e).Ends P fun _ => True := by
  refine instantiateRenamed_ends (P := fun _ image => P image)
    (K := fun e names => (e.isMarker = true → marks) ∧
      ∀ name ∈ e.occurrences false, named (names name)) ?_ shaped ⟨root, allowed⟩
  constructor
  · rintro symbol names ⟨_, allowed⟩
    exact values.toSubst (leaves _ (allowed symbol (by simp [var])))
  · rintro kind symbol children names shaped ⟨_, allowed⟩ notVar whole child member
    refine ⟨fun isMarker => ?_, fun name occurs =>
      allowed name (mem_occurrences_of_child notVar member occurs)⟩
    refine unexpanded (whole.resolve_left fun plain => ?_)
    simp [shaped.child_isMarker_eq_false plain member] at isMarker
  · rintro symbol mark template names shaped ⟨_, allowed⟩ index
    obtain ⟨inner, same, _, notMarker⟩ := (shaped.child (List.mem_singleton_self _)).marker
    obtain rfl := List.singleton_inj.mp same
    exact ⟨by simp [notMarker], fun name occurs =>
      copied _ _ (allowed name (mem_occurrences_of_template occurs))⟩
  · exact fun _ _ _ => trivial
  · rintro kind symbol children images names _ ⟨root, _⟩ assembled
    obtain ⟨notVar, each⟩ : kind ≠ .var ∧ ∀ image ∈ images, P image := by
      cases assembled with
      | plain notVar _ _ each =>
          exact ⟨notVar, fun image member => (each image member).choose_spec.2⟩
      | kept _ marker => exact ⟨by decide, by simpa using marker⟩
      | expanded _ _ each => exact ⟨by decide, each⟩
    unfold build
    split
    · trivial
    · rename_i fits
      exact nodes kind symbol images notVar (fun isMarker => root (isMarker ▸ rfl)) fits each

theorem wellShaped_of_instantiateRenamed {bindings : Bindings}
    (values : bindings.AllValues WellShaped) {e : Expr} (shaped : e.WellShaped)
    {names : String → String} {image : Expr}
    (built : instantiateRenamed bindings names e = .ok image) : image.WellShaped :=
  (of_instantiateRenamed (fun _ => True) True values (fun name _ => (plain_var name).1)
    (fun _ _ known => known)
    (fun _ => trivial) (fun _ _ _ _ _ fits each => (wellShaped_node _ _ _).mpr ⟨fits, each⟩)
    shaped (fun _ => trivial) fun _ _ => trivial).value built

/-- A step is the right side itself, or the right side is grounded and settling goes on. -/
theorem settle_eq_ok {target lhs rhs image : Expr} {passes : Nat}
    (settled : settle target passes lhs rhs = .ok image) :
    (lhs = target ∧ rhs = image) ∨
      ∃ bindings groundLhs groundRhs rest, target.bindings? lhs = some bindings ∧
        lhs.instantiate bindings = .ok groundLhs ∧ rhs.instantiate bindings = .ok groundRhs ∧
        groundLhs.isMarker = false ∧ groundRhs.isMarker = false ∧ rest + 1 = passes ∧
        settle target rest groundLhs groundRhs = .ok image := by
  cases passes with
  | zero => exact absurd settled (Attempt.stepFault_ne_ok _ _)
  | succ rest =>
      rw [settle] at settled
      split at settled
      · rename_i same
        exact Or.inl ⟨same, Except.ok.inj settled⟩
      · obtain ⟨bindings, matched, settled⟩ := Attempt.bind_eq_ok.mp settled
        obtain ⟨left, builtLeft, settled⟩ := Attempt.bind_eq_ok.mp settled
        obtain ⟨right, builtRight, settled⟩ := Attempt.bind_eq_ok.mp settled
        obtain ⟨_, built, settled⟩ := Attempt.bind_eq_ok.mp settled
        have operands := isMarker_of_build (by decide) built
        split at settled
        · exact absurd settled (Attempt.stepFault_ne_ok _ _)
        · exact Or.inr ⟨bindings, left, right, rest, matchHere_eq_ok_iff.mp matched, builtLeft,
            builtRight, operands left (by simp), operands right (by simp), rfl, settled⟩

theorem wellShaped_of_settle {target : Expr} (targetShaped : target.WellShaped) {passes : Nat}
    {lhs rhs image : Expr} (lhsShaped : lhs.WellShaped) (rhsShaped : rhs.WellShaped)
    (settled : settle target passes lhs rhs = .ok image) : image.WellShaped := by
  induction passes generalizing lhs rhs with
  | zero => exact absurd settled (Attempt.stepFault_ne_ok _ _)
  | succ passes ih =>
      rcases settle_eq_ok settled with
        ⟨_, rfl⟩ | ⟨bindings, left, right, rest, found, builtLeft, builtRight, _, _, same, later⟩
      · exact rhsShaped
      · obtain rfl := Nat.succ.inj same
        have values := values_wellShaped targetShaped found
        exact ih (wellShaped_of_instantiateRenamed values lhsShaped builtLeft)
          (wellShaped_of_instantiateRenamed values rhsShaped builtRight) later

theorem WellShaped.sides {symbol : String} {lhs rhs : Expr}
    (shaped : (node .statement symbol [lhs, rhs]).WellShaped) :
    lhs.IsOperand ∧ rhs.IsOperand :=
  (statement_wellShaped symbol lhs rhs).mp shaped

theorem wellShaped_of_byEquationAt {e lhs rhs result : Expr} {address : Address}
    (shaped : e.WellShaped) (sides : (equation lhs rhs).WellShaped)
    (stepped : e.byEquationAt (equation lhs rhs) address = .ok result) : result.WellShaped := by
  obtain ⟨target, resolved, rest⟩ := Attempt.bind_eq_ok.mp stepped
  obtain ⟨image, turned, replaced⟩ := Attempt.bind_eq_ok.mp rest
  have imageShaped := wellShaped_of_settle (shaped.resolve resolved) sides.sides.1.1
    sides.sides.2.1 turned
  exact shaped.replace imageShaped replaced

theorem infer_eq_ok {e premise conclusion result : Expr}
    (stepped : e.infer (implication premise conclusion) = .ok result) :
    (premise = e ∧ conclusion = result) ∨
      ∃ bindings, e.bindings? premise = some bindings ∧ premise.instantiate bindings = .ok e ∧
        conclusion.instantiate bindings = .ok result ∧ result.isMarker = false := by
  rw [infer] at stepped
  simp only [implicationSides?, implication] at stepped
  split at stepped
  · obtain ⟨bindings, matched, stepped⟩ := Attempt.bind_eq_ok.mp stepped
    obtain ⟨left, builtLeft, stepped⟩ := Attempt.bind_eq_ok.mp stepped
    obtain ⟨right, builtRight, stepped⟩ := Attempt.bind_eq_ok.mp stepped
    obtain ⟨_, built, stepped⟩ := Attempt.bind_eq_ok.mp stepped
    have operands := isMarker_of_build (by decide) built
    split at stepped
    · rename_i same
      obtain rfl := Except.ok.inj stepped
      rw [same] at builtLeft
      exact Or.inr ⟨bindings, matchHere_eq_ok_iff.mp matched, builtLeft, builtRight,
        operands _ (by simp)⟩
    · exact absurd stepped (Attempt.stepFault_ne_ok _ _)
  · split at stepped
    · rename_i same
      exact Or.inl ⟨same, Except.ok.inj stepped⟩
    · exact absurd stepped (Attempt.stepFault_ne_ok _ _)

theorem wellShaped_of_infer {e premise conclusion result : Expr} (shaped : e.WellShaped)
    (sides : (implication premise conclusion).WellShaped)
    (stepped : e.infer (implication premise conclusion) = .ok result) : result.WellShaped := by
  rcases infer_eq_ok stepped with ⟨_, rfl⟩ | ⟨bindings, found, _, built, _⟩
  · exact sides.sides.2.1
  · exact wellShaped_of_instantiateRenamed (values_wellShaped shaped found) sides.sides.2.1 built

end Expr

end Stepwise
