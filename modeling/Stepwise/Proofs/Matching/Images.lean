import Stepwise.Proofs.Attempt
import Stepwise.Proofs.Expr.Expansion
import Stepwise.Proofs.Expr.Places
import Stepwise.Proofs.Matching.Bindings

/-!
Instances as substitutions. Where the substituted tree is well shaped, an instance exists and is
that tree: of the expression itself if nothing in it is expanded, otherwise of its expansion to
the bound number of copies, in which the bound names are shared. An instance that exists is that
tree.
-/

namespace Stepwise.Expr

theorem build_eq_ok {kind : Kind} {symbol : String} {children : List Expr}
    (shaped : (node kind symbol children).WellShaped) :
    build kind symbol children = .ok (node kind symbol children) := by
  rw [build, ((wellShaped_node _ _ _).mp shaped).1]

theorem instantiateEach_eq_ok (bindings : Bindings) (names : String → String) (f : Expr → Expr)
    (es : List Expr) (each : ∀ e ∈ es, instantiateRenamed bindings names e = .ok (f e)) :
    instantiateEach bindings names es = .ok (es.map f) := by
  induction es with
  | nil => rfl
  | cons e es ih =>
      rw [instantiateEach, each e (by simp), ih fun other member => each other (by simp [member])]
      rfl

theorem instantiateRenamed_var (bindings : Bindings) (names : String → String) (symbol : String) :
    instantiateRenamed bindings names (node .var symbol []) =
      .ok (bindings.toSubst (names symbol)) := by
  rw [instantiateRenamed]
  rfl

theorem instantiateRenamed_node (bindings : Bindings) (names : String → String) (kind : Kind)
    (symbol : String) (children : List Expr) (notVar : kind ≠ .var)
    (plain : (node kind symbol children).template? = none) :
    instantiateRenamed bindings names (node kind symbol children) =
      (instantiateEach bindings names children).bind (build kind symbol) := by
  rw [instantiateRenamed]
  · rfl
  · exact notVar
  · rintro mark template rfl rfl
    simp [template?] at plain

theorem instantiateRenamed_unexpanded (bindings : Bindings) (names : String → String)
    (symbol mark : String) (template : Expr) (unbound : bindings.arity = .ok none) :
    instantiateRenamed bindings names (node .train symbol [node .variadic mark [template]]) =
      (instantiateRenamed bindings names template).bind fun inner =>
        (build .variadic mark [inner]).bind fun marker => build .train symbol [marker] := by
  rw [instantiateRenamed, unbound]
  rfl

theorem instantiateRenamed_expanded (bindings : Bindings) (names : String → String)
    (symbol mark : String) (template : Expr) {count : Nat} (positive : 1 ≤ count)
    (arity : bindings.arity = .ok (some (count : Int))) :
    instantiateRenamed bindings names (node .train symbol [node .variadic mark [template]]) =
      ((List.range count).mapM fun index => instantiateRenamed bindings
        (fun name => copyName bindings.keys ((index + 1 : Nat) : Int) (names name)) template).bind
          (build .train symbol) := by
  have notLess : ¬(count : Int) < 1 := by omega
  rw [instantiateRenamed, arity]
  change (if (count : Int) < 1 then _ else _) = _
  rw [if_neg notLess]
  rfl

theorem mapM_eq_ok {α : Type} (f : α → Attempt Expr) (g : α → Expr) (xs : List α)
    (each : ∀ x ∈ xs, f x = .ok (g x)) : xs.mapM f = .ok (xs.map g) := by
  induction xs with
  | nil => rfl
  | cons x xs ih =>
      rw [List.mapM_cons, each x (by simp), ih fun y member => each y (by simp [member])]
      rfl

theorem instantiateRenamed_eq_subst (bindings : Bindings) (names : String → String) (e : Expr)
    (shaped : e.WellShaped) (unexpanded : e.MarkerFree ∨ bindings.arity = .ok none)
    (image : ((e.rename names).subst bindings.toSubst).WellShaped) :
    instantiateRenamed bindings names e = .ok ((e.rename names).subst bindings.toSubst) := by
  induction e using templateInduction with
  | var symbol children =>
      rw [shaped.children_eq_nil (Or.inr rfl), instantiateRenamed_var, rename_var, subst_var]
  | variadicTrain symbol mark template ih =>
      have unbound : bindings.arity = .ok none := by
        rcases unexpanded with free | unbound
        · simp [markerFree_node] at free
        · exact unbound
      have inTrain := List.mem_singleton_self (node .variadic mark [template])
      have inMarker := List.mem_singleton_self template
      simp only [rename_node _ _ _ _ (by decide : Kind.train ≠ .var),
        rename_node _ _ _ _ (by decide : Kind.variadic ≠ .var),
        subst_node _ _ _ _ (by decide : Kind.train ≠ .var),
        subst_node _ _ _ _ (by decide : Kind.variadic ≠ .var), List.map_cons, List.map_nil]
        at image ⊢
      have marker := image.child (List.mem_singleton_self _)
      rw [instantiateRenamed_unexpanded bindings names symbol mark template unbound,
        ih ((shaped.child inTrain).child inMarker) (Or.inr unbound)
          (marker.child (List.mem_singleton_self _))]
      change (build .variadic mark [_]).bind _ = _
      rw [build_eq_ok marker]
      exact build_eq_ok image
  | other kind symbol children notVar plain each =>
      rw [rename_node _ _ _ _ notVar, subst_node _ _ _ _ notVar, List.map_map] at image ⊢
      rw [instantiateRenamed_node _ _ _ _ _ notVar plain,
        instantiateEach_eq_ok bindings names (subst bindings.toSubst ∘ rename names)]
      · exact build_eq_ok image
      · intro child member
        refine each child member (shaped.child member) ?_ (image.child (List.mem_map_of_mem member))
        exact unexpanded.imp_left fun free => ((markerFree_node _ _ _).mp free).2 child member

theorem instantiate_eq_subst (bindings : Bindings) (e : Expr) (shaped : e.WellShaped)
    (unexpanded : e.MarkerFree ∨ bindings.arity = .ok none)
    (image : (e.subst bindings.toSubst).WellShaped) :
    e.instantiate bindings = .ok (e.subst bindings.toSubst) := by
  have same := instantiateRenamed_eq_subst bindings id e shaped unexpanded
  rw [rename_id] at same
  exact same image

theorem instantiate_eq_subst_expandAll (bindings : Bindings) {count : Nat} (positive : 1 ≤ count)
    (arity : bindings.arity = .ok (some (count : Int))) (e : Expr) (shaped : e.WellShaped)
    (flat : e.FlatTemplates)
    (image : ((e.expandAll bindings.keys count).subst bindings.toSubst).WellShaped) :
    e.instantiate bindings = .ok ((e.expandAll bindings.keys count).subst bindings.toSubst) := by
  unfold instantiate
  induction e using templateInduction with
  | var symbol children =>
      rw [shaped.children_eq_nil (Or.inr rfl), instantiateRenamed_var, expandAll_var, subst_var]
      rfl
  | variadicTrain symbol mark template =>
      obtain ⟨templateShaped, plain⟩ := template_of_variadicTrain shaped flat
      rw [expandAll_variadicTrain, subst_node _ _ _ _ (by decide), copies_eq_map,
        List.map_map] at image ⊢
      rw [instantiateRenamed_expanded bindings id symbol mark template positive arity,
        mapM_eq_ok _ (fun index => (template.rename
          (copyName bindings.keys ((index + 1 : Nat) : Int))).subst bindings.toSubst)]
      · exact build_eq_ok image
      · intro index member
        exact instantiateRenamed_eq_subst bindings _ template templateShaped (Or.inl plain)
          (image.child (List.mem_map_of_mem member))
  | other kind symbol children notVar plain each =>
      rw [expandAll_node _ _ _ _ _ notVar plain, subst_node _ _ _ _ notVar, List.map_map]
        at image ⊢
      rw [instantiateRenamed_node _ _ _ _ _ notVar plain,
        instantiateEach_eq_ok bindings id (subst bindings.toSubst ∘ expandAll bindings.keys count)]
      · exact build_eq_ok image
      · exact fun child member => each child member (shaped.child member) (flat.child member)
          (image.child (List.mem_map_of_mem member))

theorem instantiateEach_congr {bindings others : Bindings} {names : String → String}
    {es : List Expr}
    (each : ∀ e ∈ es, instantiateRenamed bindings names e = instantiateRenamed others names e) :
    instantiateEach bindings names es = instantiateEach others names es := by
  induction es with
  | nil => rw [instantiateEach, instantiateEach]
  | cons e es ih =>
      rw [instantiateEach, instantiateEach, each e (by simp),
        ih fun other member => each other (by simp [member])]

theorem instantiateRenamed_congr {bindings others : Bindings}
    (same : ∀ name, bindings.find? name = others.find? name) (names : String → String) (e : Expr) :
    instantiateRenamed bindings names e = instantiateRenamed others names e := by
  have arities : bindings.arity = others.arity := by
    rw [Bindings.arity, Bindings.arity, same]
  have copyNames (index : Int) (name : String) :
      copyName bindings.keys index name = copyName others.keys index name := by
    have bound : name ∈ bindings.keys ↔ name ∈ others.keys := by
      rw [Table.mem_keys_iff bindings, Table.mem_keys_iff others, same]
    simp only [copyName, bound]
  induction e using templateInduction generalizing names with
  | var symbol children => rw [instantiateRenamed, instantiateRenamed, same]
  | variadicTrain symbol mark template ih =>
      rw [instantiateRenamed, instantiateRenamed, arities]
      simp only [ih, copyNames]
  | other kind symbol children notVar plain each =>
      rw [instantiateRenamed_node _ _ _ _ _ notVar plain,
        instantiateRenamed_node _ _ _ _ _ notVar plain,
        instantiateEach_congr fun child member => each child member names]

theorem map_eq_of_instantiateEach {bindings : Bindings} {names : String → String} {f : Expr → Expr}
    {es images : List Expr}
    (each : ∀ e ∈ es, ∀ image, instantiateRenamed bindings names e = .ok image → f e = image)
    (built : instantiateEach bindings names es = .ok images) : es.map f = images := by
  induction es generalizing images with
  | nil => exact Except.ok.inj built
  | cons e es ih =>
      rw [instantiateEach] at built
      obtain ⟨first, here, built⟩ := Attempt.bind_eq_ok.mp built
      obtain ⟨others, below, same⟩ := Attempt.bind_eq_ok.mp built
      obtain rfl := Except.ok.inj same
      rw [List.map_cons, each e (by simp) first here,
        ih (fun other member => each other (by simp [member])) below]

theorem subst_of_instantiateRenamed {bindings : Bindings} {names : String → String} {e image : Expr}
    (shaped : e.WellShaped) (free : e.MarkerFree)
    (built : instantiateRenamed bindings names e = .ok image) :
    (e.rename names).subst bindings.toSubst = image := by
  induction e using Expr.induction generalizing image with
  | node kind symbol children each =>
      by_cases isVar : kind = .var
      · subst isVar
        rw [shaped.children_eq_nil (Or.inr rfl), instantiateRenamed_var] at built
        rw [rename_var, subst_var]
        exact Except.ok.inj built
      · rw [instantiateRenamed_node _ _ _ _ _ isVar free.template?_eq_none] at built
        obtain ⟨images, below, joined⟩ := Attempt.bind_eq_ok.mp built
        have same := map_eq_of_instantiateEach (f := fun child =>
          (child.rename names).subst bindings.toSubst)
          (fun child member image => each child member (shaped.child member)
            (((markerFree_node _ _ _).mp free).2 child member)) below
        rw [rename_node _ _ _ _ isVar, subst_node _ _ _ _ isVar, List.map_map, eq_of_build joined,
          ← same]
        rfl

theorem subst_of_instantiate {bindings : Bindings} {e image : Expr} (shaped : e.WellShaped)
    (free : e.MarkerFree) (built : e.instantiate bindings = .ok image) :
    e.subst bindings.toSubst = image := by
  have same := subst_of_instantiateRenamed shaped free built
  rwa [rename_id] at same

theorem map_eq_of_mapM {α : Type} {f : α → Attempt Expr} {g : α → Expr} {xs : List α}
    {images : List Expr} (each : ∀ x ∈ xs, ∀ image, f x = .ok image → g x = image)
    (built : xs.mapM f = .ok images) : xs.map g = images := by
  induction xs generalizing images with
  | nil => exact Except.ok.inj built
  | cons x xs ih =>
      rw [List.mapM_cons] at built
      obtain ⟨first, here, built⟩ := Attempt.bind_eq_ok.mp built
      obtain ⟨others, below, same⟩ := Attempt.bind_eq_ok.mp built
      obtain rfl := Except.ok.inj same
      rw [List.map_cons, each x (by simp) first here,
        ih (fun other member => each other (by simp [member])) below]

theorem subst_expandAll_of_instantiate {bindings : Bindings} {count : Nat} (positive : 1 ≤ count)
    (arity : bindings.arity = .ok (some (count : Int))) {e image : Expr} (shaped : e.WellShaped)
    (flat : e.FlatTemplates) (built : e.instantiate bindings = .ok image) :
    (e.expandAll bindings.keys count).subst bindings.toSubst = image := by
  unfold instantiate at built
  induction e using templateInduction generalizing image with
  | var symbol children =>
      rw [shaped.children_eq_nil (Or.inr rfl), instantiateRenamed_var] at built
      rw [expandAll_var, subst_var]
      exact Except.ok.inj built
  | variadicTrain symbol mark template =>
      obtain ⟨templateShaped, free⟩ := template_of_variadicTrain shaped flat
      rw [instantiateRenamed_expanded bindings id symbol mark template positive arity] at built
      obtain ⟨terms, below, joined⟩ := Attempt.bind_eq_ok.mp built
      have same := map_eq_of_mapM (fun index _ image built =>
        subst_of_instantiateRenamed templateShaped free built) below
      rw [expandAll_variadicTrain, subst_node _ _ _ _ (by decide), copies_eq_map, List.map_map,
        eq_of_build joined, ← same]
      rfl
  | other kind symbol children notVar plain each =>
      rw [instantiateRenamed_node _ _ _ _ _ notVar plain] at built
      obtain ⟨images, below, joined⟩ := Attempt.bind_eq_ok.mp built
      have same := map_eq_of_instantiateEach (f := fun child =>
        (child.expandAll bindings.keys count).subst bindings.toSubst)
        (fun child member image => each child member (shaped.child member) (flat.child member)) below
      rw [expandAll_node _ _ _ _ _ notVar plain, subst_node _ _ _ _ notVar, List.map_map,
        eq_of_build joined, ← same]
      rfl

theorem instantiateEach_ok {bindings : Bindings} {names : String → String} {es images : List Expr}
    (built : instantiateEach bindings names es = .ok images) {e : Expr} (member : e ∈ es) :
    ∃ image, instantiateRenamed bindings names e = .ok image := by
  induction es generalizing images with
  | nil => simp at member
  | cons first rest ih =>
      rw [instantiateEach] at built
      obtain ⟨image, here, later⟩ := Attempt.bind_eq_ok.mp built
      obtain ⟨others, below, _⟩ := Attempt.bind_eq_ok.mp later
      rcases List.mem_cons.mp member with rfl | inRest
      · exact ⟨image, here⟩
      · exact ih below inRest

theorem arity_of_instantiate_ok {bindings : Bindings} {names : String → String} {e image : Expr}
    (shaped : e.WellShaped) (variadic : e.HasVariadicTrain)
    (built : instantiateRenamed bindings names e = .ok image) :
    ∃ arity, bindings.arity = .ok arity := by
  induction e using templateInduction generalizing image with
  | var symbol children =>
      obtain rfl := shaped.children_eq_nil (Or.inr rfl)
      simp [hasVariadicTrain_node, isVariadicTrain, template?] at variadic
  | variadicTrain symbol mark template =>
      rw [instantiateRenamed] at built
      obtain ⟨arity, read, _⟩ := Attempt.bind_eq_ok.mp built
      exact ⟨arity, read⟩
  | other kind symbol children notVar plain each =>
      rw [instantiateRenamed_node _ _ _ _ _ notVar plain] at built
      obtain ⟨images, inside, _⟩ := Attempt.bind_eq_ok.mp built
      rcases (hasVariadicTrain_node _ _ _).mp variadic with here | ⟨child, member, below⟩
      · simp [isVariadicTrain, plain] at here
      · obtain ⟨part, builtPart⟩ := instantiateEach_ok inside member
        exact each child member (shaped.child member) below builtPart

end Stepwise.Expr
