import Mathlib.Data.List.Basic
import Stepwise.Document
import Stepwise.Proofs.Parse.Failure
import Stepwise.Proofs.Rule.Closure
import Stepwise.Proofs.Rule.Loading

/-!
How loading a rule set can fail. The variations and the rules of a document whose parts have the
documented types are read with nothing but reported failures, apart from texts that apply the
ellipsis to an application of itself; what else can fail is to close a statement that was read
under the variations. Whatever a document says, the rules that are entered are well shaped.
-/

namespace Stepwise

namespace Fault

def IsRuleSet (fault : Fault) : Prop := ∃ cause, fault = .ruleSet cause

/-- A value is asked for what those of its type do not have. -/
def IsMistyped (fault : Fault) : Prop := ∃ kind asked, fault = .missing (.ability kind asked)

end Fault

namespace Json

def IsText (value : Json) : Prop := ∃ written, value = text written

def IsObject (value : Json) : Prop := ∃ members, value = object members

def IsListOf (P : Json → Prop) (value : Json) : Prop :=
  ∃ values, value = list values ∧ ∀ item ∈ values, P item

def Under (names : List String) (P : Json → Prop) (value : Json) : Prop :=
  ∀ name ∈ names, ∀ part, value.member? name = some part → P part

structure IsEntry (entry : Json) : Prop where
  object : entry.IsObject
  texts : entry.Under ["expr_prefix", "expr"] IsText

structure IsContext (data : Json) : Prop where
  object : data.IsObject
  base : data.Under ["base"] fun base => base = null ∨ base.IsText
  lists : data.Under ["parameters", "unary_ops", "binary_ops", "assoc_ops", "flags"]
    (IsListOf IsText)

/-- The parts of a document that are read have the types that they should have. -/
structure IsTyped (document : Json) : Prop where
  context : document.Under ["context"] IsContext
  entries : document.Under ["variations", "rules"] (IsListOf IsEntry)

theorem lacks_isMistyped (value : Json) (asked : Ability) : (value.lacks asked).IsMistyped :=
  ⟨_, _, rfl⟩

theorem iterated_ends (value : Json) :
    value.iterated.Ends (fun items => ∀ values, value = list values → items = values)
      fun fault => fault.IsMistyped ∧ ∀ values, value ≠ list values := by
  cases value with
  | list values => exact fun _ same => list.inj same
  | text _ | object _ => exact fun _ same => nomatch same
  | _ => exact ⟨lacks_isMistyped _ _, fun _ same => nomatch same⟩

theorem got_ends (name : String) (value : Json) :
    (value.got name).Ends (fun found => found = value.member? name)
      fun fault => fault.IsMistyped ∧ ¬value.IsObject := by
  cases value with
  | object _ => rfl
  | _ => exact ⟨lacks_isMistyped _ _, fun ⟨_, same⟩ => nomatch same⟩

theorem under_ends (name : String) (value : Json) :
    (value.under name).Ends (fun found => found = value.member? name)
      fun fault => fault.IsMistyped ∧ ¬value.IsObject := by
  cases value with
  | object _ => rfl
  | list _ | text _ =>
      unfold under
      dsimp only
      split
      · exact ⟨lacks_isMistyped _ _, fun ⟨_, same⟩ => nomatch same⟩
      · rfl
  | _ => exact ⟨lacks_isMistyped _ _, fun ⟨_, same⟩ => nomatch same⟩

theorem written_ends (method : String) (value : Json) :
    (value.written method).Ends (fun written => value = text written)
      fun fault => fault.IsMistyped ∧ ¬value.IsText := by
  cases value with
  | text _ => rfl
  | _ => exact ⟨lacks_isMistyped _ _, fun ⟨_, same⟩ => nomatch same⟩

theorem checkHash_ends (value : Json) :
    value.checkHash.Ends (fun _ => True)
      fun fault => fault.IsMistyped ∧ value ≠ null ∧ ¬value.IsText := by
  cases value with
  | list _ | object _ =>
      exact ⟨lacks_isMistyped _ _, nofun, fun ⟨_, same⟩ => nomatch same⟩
  | _ => trivial

end Json

namespace RuleSet

open Stepwise.Expr

variable {ctx : Context} {rs : RuleSet} {variations : List Expr}

/-- The text of the entry applies the ellipsis to an application of itself. -/
def EntryDoubles (ctx : Context) (entry : Json) : Prop :=
  ∃ written, entry.member? "expr_prefix" = some (.text written) ∧ Parse.Doubles ctx written.toList

def EntryFails (ctx : Context) (entry : Json) (fault : Fault) : Prop :=
  fault.IsRuleSet ∨ fault.IsMistyped ∧ ¬entry.IsEntry ∨
    fault = .shape .strayMarker ∧ EntryDoubles ctx entry

theorem reported_ends {P : Expr → Prop} {Q : Fault → Prop} (part : DocumentPart)
    {attempt : Attempt Expr} (ends : attempt.Ends P fun fault => fault.IsParse ∨ Q fault) :
    (reported part attempt).Ends P fun fault => fault.IsRuleSet ∨ Q fault := by
  unfold reported
  split
  · exact Or.inl ⟨_, rfl⟩
  · rename_i notParse
    cases attempt with
    | ok value => exact ends
    | error fault =>
        rcases ends with ⟨cause, rfl⟩ | other
        · exact (notParse cause rfl).elim
        · exact Or.inr other

theorem untyped_text {entry value : Json} {name : String} (known : name ∈ ["expr_prefix", "expr"])
    (found : some value = entry.member? name) (untyped : ¬value.IsText) : ¬entry.IsEntry :=
  fun typed => untyped (typed.texts name known value found.symm)

theorem entryStatement_ends (ctx : Context) (part : DocumentPart) (entry : Json) :
    (entryStatement ctx part entry).Ends WellShaped (EntryFails ctx entry) := by
  have lookup (name : String) : (entry.under name).Ends (fun found => found = entry.member? name)
      (EntryFails ctx entry) :=
    (Json.under_ends name entry).imp_fault fun _ ⟨mistyped, untyped⟩ =>
      Or.inr (Or.inl ⟨mistyped, fun typed => untyped typed.object⟩)
  have textOf {value : Json} {name : String} (known : name ∈ ["expr_prefix", "expr"])
      (found : some value = entry.member? name) (method : String) :
      (value.written method).Ends (fun written => value = .text written) (EntryFails ctx entry) :=
    (Json.written_ends method value).imp_fault fun _ ⟨mistyped, untyped⟩ =>
      Or.inr (Or.inl ⟨mistyped, untyped_text known found untyped⟩)
  unfold entryStatement
  refine (lookup _).bind fun inApplied _ found => ?_
  cases inApplied with
  | some value =>
      refine (textOf (by simp) found _).bind fun written _ same => ?_
      obtain rfl := same
      refine (reported_ends part (Parse.applied_ends ctx written)).imp_fault fun _ fails => ?_
      rcases fails with known | ⟨rfl, doubles⟩
      · exact Or.inl known
      · exact Or.inr (Or.inr ⟨rfl, written, found.symm, doubles⟩)
  | none =>
      refine (lookup _).bind fun inInfix _ found => ?_
      cases inInfix with
      | some value =>
          refine (textOf (by simp) found _).bind fun written _ _ => ?_
          have ends := (Parse.infixed_operand ctx written).imp (fun _ _ operand => operand.1)
            fun _ => Or.inl (b := False)
          exact (reported_ends part ends).imp_fault fun _ known => known.imp_right False.elim
      | none => exact Or.inl ⟨_, rfl⟩

theorem EntryDoubles.entryStatement_eq {entry : Json} (doubles : EntryDoubles ctx entry)
    (part : DocumentPart) : entryStatement ctx part entry = .error (.shape .strayMarker) := by
  obtain ⟨written, inApplied, doubles⟩ := doubles
  obtain ⟨members, rfl⟩ : entry.IsObject := by
    cases entry with
    | object members => exact ⟨members, rfl⟩
    | _ => simp [Json.member?] at inApplied
  have found : (Json.object members).under "expr_prefix" = .ok (some (.text written)) :=
    congrArg Except.ok inApplied
  have failed : Parse.applied ctx written = .error (.shape .strayMarker) :=
    doubles.appliedChars_eq
  simp [entryStatement, found, Json.written, failed, reported, bind, Except.bind]

theorem readVariations_ends (ctx : Context) (index : Nat) (entries : List Json) :
    (readVariations ctx index entries).Ends (fun variations => ∀ e ∈ variations, e.WellShaped)
      fun fault => ∃ entry ∈ entries, EntryFails ctx entry fault := by
  induction entries generalizing index with
  | nil => exact fun _ member => absurd member List.not_mem_nil
  | cons entry rest ih =>
      refine Attempt.Ends.bind ((entryStatement_ends ctx (.variation index) entry).imp_fault
        fun _ failed => ⟨entry, by simp, failed⟩) fun _ _ first => ?_
      refine Attempt.Ends.bind ((ih (index + 1)).imp_fault
        fun _ ⟨other, member, failed⟩ => ⟨other, by simp [member], failed⟩) fun _ _ others => ?_
      exact List.forall_mem_cons.mpr ⟨first, others⟩

def IsRuleForm (e : Expr) : Prop :=
  ∃ symbol lhs rhs, (symbol = "=" ∨ symbol = "=>") ∧ e = formOf symbol rhs lhs

theorem isRuleForm_of_shape {statement : Expr} (shaped : statement.WellShaped)
    (known : (statement.isEquation || statement.isImplication) = true) :
    IsRuleForm statement := by
  obtain ⟨kind, symbol, children⟩ := statement
  simp only [isEquation, isImplication, isStatement, kind_node, symbol_node, Bool.or_eq_true,
    Bool.and_eq_true, ← and_or_left] at known
  obtain rfl : kind = .statement := of_decide_eq_true known.1
  have two : children.length = 2 := by
    have count := ((shapeFault?_eq_none_iff _ _).mp ((wellShaped_node _ _ _).mp shaped).1).1
    simpa [countFault?] using count
  obtain ⟨lhs, rhs, rfl⟩ := List.length_eq_two.mp two
  exact ⟨symbol, lhs, rhs, known.2.imp of_decide_eq_true of_decide_eq_true, rfl⟩

theorem IsRuleForm.forms {statement : Expr} (isRule : IsRuleForm statement) {limit : Nat}
    {results : List Expr} (listed : statement.forms limit variations = .ok results) :
    ∀ form ∈ results, IsRuleForm form := by
  obtain ⟨symbol, lhs, rhs, known, rfl⟩ := isRule
  obtain ⟨lefts, rfl, _⟩ := varyFrom_closes (IsDerived.start variations lhs) (by simp) listed
  intro form member
  obtain ⟨left, _, rfl⟩ := List.mem_map.mp member
  exact ⟨symbol, left, rhs, known, rfl⟩

theorem IsRuleForm.exists_rule {form : Expr} (isRule : IsRuleForm form) (id : String)
    (label : Caption) :
    ∃ rule, Rule.ofStatement id label form = .ok rule := by
  obtain ⟨symbol, lhs, rhs, rfl | rfl, rfl⟩ := isRule
  · exact ⟨_, rfl⟩
  · exact ⟨_, rfl⟩

theorem add_ends (rs : RuleSet) (rule : Rule) (auto : Bool) :
    (rs.add rule auto).Ends (fun extended => extended.context = rs.context) Fault.IsRuleSet := by
  unfold add
  split
  · exact ⟨_, rfl⟩
  · rfl

theorem enterForms_ends (rs : RuleSet) (id : String) (label : Caption) (auto : Bool)
    (count index : Nat) {forms : List Expr} (rules : ∀ form ∈ forms, IsRuleForm form) :
    (rs.enterForms id label auto count index forms).result.Ends
      (fun extended => extended.context = rs.context) Fault.IsRuleSet := by
  induction forms generalizing rs index with
  | nil => rfl
  | cons form rest ih =>
      obtain ⟨rule, made⟩ :=
        (rules form (by simp)).exists_rule (formId rs.name id count index) label
      simp only [enterForms, Logged.bind_result, Logged.ofAttempt, made]
      refine (add_ends rs rule auto).bind fun extended _ same => ?_
      exact (ih extended (index + 1) fun other member => rules other (by simp [member])).imp
        (fun _ _ kept => kept.trans same) fun _ known => known

/-- A rule that was read from the entry cannot be closed under the variations. -/
def ClosingFails (ctx : Context) (variations : List Expr) (entry : Json) (fault : Fault) : Prop :=
  ∃ part statement, entryStatement ctx part entry = .ok statement ∧ IsRuleForm statement ∧
    statement.forms formLimit variations = .error fault

theorem enterDocumented_ends (shaped : rs.IsShaped) (each : ∀ e ∈ variations, e.WellShaped)
    (entry : Json) :
    (rs.enterDocumented variations entry).result.Ends
      (fun extended => extended.context = rs.context ∧ extended.IsShaped) fun fault =>
        EntryFails rs.context entry fault ∨ ClosingFails rs.context variations entry fault := by
  unfold enterDocumented
  rw [Logged.bind_result]
  refine Attempt.Ends.bind ((Json.under_ends "id" entry).imp_fault fun _ ⟨mistyped, untyped⟩ =>
    Or.inl (Or.inr (Or.inl ⟨mistyped, fun typed => untyped typed.object⟩))) fun found _ _ => ?_
  cases found with
  | none => exact Or.inl (Or.inl ⟨_, rfl⟩)
  | some id =>
      dsimp only
      rw [Logged.bind_result]
      refine Attempt.Ends.bind ((entryStatement_ends rs.context (.rule id.caption) entry).imp_fault
        fun _ failed => Or.inl failed) fun statement read statementShaped => ?_
      split
      · rename_i known
        have isRule := isRuleForm_of_shape statementShaped known
        have ends : (rs.enter variations id.symbolText ((entry.member? "label").getD id).caption
            ((entry.member? "auto").getD .null).isTruthy statement).result.Ends
            (fun extended => extended.context = rs.context) fun fault =>
              EntryFails rs.context entry fault ∨
                ClosingFails rs.context variations entry fault := by
          rw [enter, Logged.bind_result]
          cases closed : statement.forms formLimit variations with
          | error fault => exact Or.inr ⟨_, statement, read, isRule, closed⟩
          | ok forms =>
              exact (enterForms_ends rs _ _ _ _ 0 (isRule.forms closed)).imp_fault
                fun _ reported => Or.inl (Or.inl reported)
        exact ends.imp (fun _ entered same => ⟨same, shaped.enter each statementShaped entered⟩)
          fun _ known => known
      · exact Or.inl (Or.inl ⟨_, rfl⟩)

theorem enterAllDocumented_ends (shaped : rs.IsShaped) (each : ∀ e ∈ variations, e.WellShaped)
    (entries : List Json) :
    (enterAllDocumented variations rs entries).result.Ends IsShaped fun fault =>
      ∃ entry ∈ entries,
        EntryFails rs.context entry fault ∨ ClosingFails rs.context variations entry fault := by
  induction entries generalizing rs with
  | nil => exact shaped
  | cons entry rest ih =>
      rw [enterAllDocumented, Logged.bind_result]
      refine Attempt.Ends.bind ((enterDocumented_ends shaped each entry).imp_fault
        fun _ failed => ⟨entry, by simp, failed⟩) fun extended _ ⟨same, longer⟩ => ?_
      refine (ih longer).imp_fault ?_
      rw [same]
      rintro fault ⟨other, member, failed⟩
      exact ⟨other, by simp [member], failed⟩

/-! Documents. -/

theorem checkHashes_ends (values : List Json) :
    (values.forM Json.checkHash).Ends (fun _ => True)
      fun fault => fault.IsMistyped ∧ ¬∀ value ∈ values, value.IsText := by
  induction values with
  | nil => trivial
  | cons value rest ih =>
      unfold List.forM
      refine Attempt.Ends.bind (value.checkHash_ends.imp_fault fun _ ⟨mistyped, _, untyped⟩ =>
        ⟨mistyped, fun typed => untyped (typed value (by simp))⟩) fun _ _ _ => ?_
      exact ih.imp_fault fun _ ⟨mistyped, untyped⟩ =>
        ⟨mistyped, fun typed => untyped fun other member => typed other (by simp [member])⟩

theorem listed_ends (data : Json) {name : String}
    (known : name ∈ ["parameters", "unary_ops", "binary_ops", "assoc_ops", "flags"]) :
    (Context.listed data name).Ends
      (fun values => data.IsContext → ∀ value ∈ values, value.IsText)
      fun fault => fault.IsRuleSet ∨ fault.IsMistyped ∧ ¬data.IsContext := by
  unfold Context.listed
  refine Attempt.Ends.bind ((data.got_ends name).imp_fault fun _ ⟨mistyped, untyped⟩ =>
    Or.inr ⟨mistyped, fun typed => untyped typed.object⟩) fun found _ same => ?_
  cases found with
  | none => exact fun _ _ member => absurd member List.not_mem_nil
  | some value =>
      have listOf (typed : data.IsContext) : value.IsListOf Json.IsText :=
        typed.lists name known value same.symm
      refine value.iterated_ends.imp (fun items _ exact typed => ?_) fun _ ⟨mistyped, other⟩ => ?_
      · obtain ⟨values, rfl, texts⟩ := listOf typed
        exact exact values rfl ▸ texts
      · exact Or.inr ⟨mistyped, fun typed =>
          let ⟨values, same, _⟩ := listOf typed
          other values same⟩

theorem startOf_ends (data : Json) : (Context.startOf data).Ends (fun _ => True)
    fun fault => fault.IsRuleSet ∨ fault.IsMistyped ∧ ¬data.IsContext := by
  unfold Context.startOf
  refine Attempt.Ends.bind ((data.got_ends "base").imp_fault fun _ ⟨mistyped, untyped⟩ =>
    Or.inr ⟨mistyped, fun typed => untyped typed.object⟩) fun found _ same => ?_
  split
  · trivial
  · trivial
  · rename_i base notNull _
    have texts (typed : data.IsContext) : base = .null ∨ base.IsText :=
      typed.base "base" (by simp) base same.symm
    refine Attempt.Ends.bind (base.checkHash_ends.imp_fault fun _ ⟨mistyped, notNull, untyped⟩ =>
      Or.inr ⟨mistyped, fun typed => (texts typed).elim notNull untyped⟩) fun _ _ _ => ?_
    split
    · trivial
    · exact Or.inl ⟨_, rfl⟩

theorem context_ends (data : Json) : (Context.ofDocument data).Ends (fun _ => True)
    fun fault => fault.IsRuleSet ∨ fault.IsMistyped ∧ ¬data.IsContext := by
  unfold Context.ofDocument
  refine (startOf_ends data).bind fun _ _ _ => ?_
  refine (listed_ends data (by simp)).bind fun _ _ _ => ?_
  refine (listed_ends data (by simp)).bind fun _ _ _ => ?_
  refine (listed_ends data (by simp)).bind fun _ _ _ => ?_
  refine (listed_ends data (by simp)).bind fun _ _ _ => ?_
  refine (listed_ends data (by simp)).bind fun flags _ texts => ?_
  refine Attempt.Ends.bind ((checkHashes_ends flags).imp_fault fun _ ⟨mistyped, untyped⟩ =>
    Or.inr ⟨mistyped, fun typed => untyped (texts typed)⟩) fun _ _ _ => ?_
  trivial

def contextOf (document : Json) : Attempt Context :=
  Context.ofDocument ((document.member? "context").getD (.object []))

def Lists (document : Json) (names : List String) (entry : Json) : Prop :=
  ∃ name ∈ names, ∃ listed, entries document name = .ok listed ∧ entry ∈ listed

/-- How loading a document can fail: as reported, with a part of another type than it should have,
with a text that applies the ellipsis to an application of itself, and in closing a statement that
was read. -/
inductive LoadFails (document : Json) : Fault → Prop
  | reported (cause : RuleSetFault) : LoadFails document (.ruleSet cause)
  | mistyped (kind : String) (asked : Ability) (untyped : ¬document.IsTyped) :
      LoadFails document (.missing (.ability kind asked))
  | doubled (ctx : Context) (entry : Json) (context : contextOf document = .ok ctx)
      (listed : Lists document ["variations", "rules"] entry) (doubles : EntryDoubles ctx entry) :
      LoadFails document (.shape .strayMarker)
  | closing (ctx : Context) (varied : List Json) (variations : List Expr) (entry : Json)
      (fault : Fault) (context : contextOf document = .ok ctx)
      (listedVariations : entries document "variations" = .ok varied)
      (read : readVariations ctx 0 varied = .ok variations)
      (listed : Lists document ["rules"] entry)
      (fails : ClosingFails ctx variations entry fault) : LoadFails document fault

theorem LoadFails.of_isRuleSet {document : Json} {fault : Fault} (known : fault.IsRuleSet) :
    LoadFails document fault := by
  obtain ⟨cause, rfl⟩ := known
  exact .reported cause

theorem LoadFails.of_isMistyped {document : Json} {fault : Fault} (mistyped : fault.IsMistyped)
    (untyped : ¬document.IsTyped) : LoadFails document fault := by
  obtain ⟨kind, asked, rfl⟩ := mistyped
  exact .mistyped kind asked untyped

section

variable {document : Json}

theorem isEntry_of_listed (typed : document.IsTyped) {name : String}
    (known : name ∈ ["variations", "rules"]) {listed : List Json}
    (found : entries document name = .ok listed) : ∀ entry ∈ listed, entry.IsEntry := by
  unfold entries at found
  cases under : document.member? name with
  | none =>
      rw [under] at found
      obtain rfl := Except.ok.inj found
      simp
  | some value =>
      obtain ⟨values, rfl, isEntry⟩ := typed.entries name known value under
      rw [under] at found
      obtain rfl := Except.ok.inj found
      exact isEntry

theorem entries_ends (document : Json) {name : String} (known : name ∈ ["variations", "rules"]) :
    (entries document name).Ends (fun _ => True) (LoadFails document) := by
  unfold entries
  refine (Json.iterated_ends _).imp (fun _ _ _ => trivial) fun fault ⟨mistyped, other⟩ => ?_
  refine .of_isMistyped mistyped fun typed => ?_
  cases under : document.member? name with
  | none => exact other [] (by simp [under])
  | some value =>
      obtain ⟨values, rfl, _⟩ := typed.entries name known value under
      exact other values (by simp [under])

theorem contextOf_ends (document : Json) :
    (contextOf document).Ends (fun _ => True) (LoadFails document) := by
  refine (context_ends _).imp_fault fun fault fails => ?_
  rcases fails with known | ⟨mistyped, untyped⟩
  · exact .of_isRuleSet known
  · refine .of_isMistyped mistyped fun typed => untyped ?_
    cases under : document.member? "context" with
    | none =>
        exact ⟨⟨[], rfl⟩, fun _ _ _ found => (nomatch found), fun _ _ _ found => (nomatch found)⟩
    | some data => exact typed.context "context" (by simp) data under

theorem EntryFails.load {entry : Json} {fault : Fault} {name : String} {listed : List Json}
    (fails : EntryFails ctx entry fault) (context : contextOf document = .ok ctx)
    (known : name ∈ ["variations", "rules"]) (found : entries document name = .ok listed)
    (member : entry ∈ listed) : LoadFails document fault := by
  rcases fails with reported | ⟨mistyped, untyped⟩ | ⟨rfl, doubles⟩
  · exact .of_isRuleSet reported
  · exact .of_isMistyped mistyped fun typed =>
      untyped (isEntry_of_listed typed known found entry member)
  · exact .doubled ctx entry context ⟨name, known, listed, found, member⟩ doubles

end

theorem ofDocument_ends (document : Json) :
    (ofDocument document).result.Ends IsShaped (LoadFails document) := by
  unfold ofDocument
  split
  · exact .reported _
  · rename_i name _
    rw [Logged.bind_result]
    refine (contextOf_ends document).bind fun ctx context _ => ?_
    rw [Logged.bind_result]
    refine (entries_ends document (by simp)).bind fun varied foundVariations _ => ?_
    rw [Logged.bind_result]
    refine Attempt.Ends.bind ((readVariations_ends ctx 0 varied).imp_fault
      fun _ ⟨_, member, fails⟩ => fails.load context (by simp) foundVariations member)
      fun variations read each => ?_
    rw [Logged.bind_result]
    refine (entries_ends document (by simp)).bind fun listed foundRules _ => ?_
    have start := isShaped_empty name.caption ctx (normalizationOf document)
    refine (enterAllDocumented_ends start each listed).imp_fault ?_
    rintro fault ⟨entry, member, fails | fails⟩
    · exact fails.load context (by simp) foundRules member
    · exact .closing ctx varied variations entry fault context foundVariations read
        ⟨"rules", by simp, listed, foundRules, member⟩ fails

theorem read_ends (written : String) :
    (read written).result.Ends IsShaped fun fault => fault.IsRuleSet ∨
      (∃ cause, fault = .literal cause ∧ Json.decode written = .error (.literal cause)) ∨
      ∃ document, Json.decode written = .ok document ∧ LoadFails document fault := by
  unfold read
  split
  · rename_i document known
    exact (ofDocument_ends document).imp_fault fun _ fails =>
      Or.inr (Or.inr ⟨document, known, fails⟩)
  · exact Or.inl ⟨_, rfl⟩
  · rename_i cause known
    exact Or.inr (Or.inl ⟨cause, rfl, known⟩)

theorem isShaped_of_load {files : Files} {path : String}
    (loaded : (RuleSet.load files path).result = .ok (.ok rs)) : rs.IsShaped := by
  unfold load at loaded
  split at loaded
  · rename_i written _
    unfold diagnosed at loaded
    dsimp only at loaded
    split at loaded
    · rename_i rules found
      obtain rfl := Except.ok.inj (Except.ok.inj loaded)
      exact (read_ends written).value found
    · simp at loaded
    · simp at loaded
  · exact nomatch loaded

/-- The infix notation is read, or the reader says what is wrong with the text. So is the applied
notation, unless the text applies the ellipsis to an application of itself, which the node refuses.
Where no text does, nothing that a rule set says in the documented types goes wrong without a report
while its entries are read. An integer with more digits than are read fails before there is a
document. -/
theorem malformed_reported (ctx : Context) (text written : String) :
    (Parse.infixed ctx text).Ends IsOperand Fault.IsParse ∧
      (Parse.applied ctx text).Ends WellShaped (fun fault => fault.IsParse ∨
        fault = .shape .strayMarker ∧ Parse.Doubles ctx text.toList) ∧
      (∀ cause, Parse.applied ctx text = .error (.shape cause) ↔
        cause = .strayMarker ∧ Parse.Doubles ctx text.toList) ∧
      (∀ part entry, entryStatement ctx part entry = .error (.shape .strayMarker) ↔
        EntryDoubles ctx entry) ∧
      (read written).result.Ends IsShaped fun fault => fault.IsRuleSet ∨
        (∃ cause, fault = .literal cause ∧ Json.decode written = .error (.literal cause)) ∨
        ∃ document, Json.decode written = .ok document ∧ LoadFails document fault := by
  refine ⟨Parse.infixed_operand ctx text, Parse.applied_ends ctx text,
    Parse.appliedChars_eq_shape_iff ctx text.toList, fun part entry => ?_, read_ends written⟩
  constructor
  · intro failed
    rcases (entryStatement_ends ctx part entry).fault failed with
      ⟨_, same⟩ | ⟨⟨_, _, same⟩, _⟩ | ⟨_, doubles⟩
    · exact nomatch same
    · exact nomatch same
    · exact doubles
  · exact fun doubles => doubles.entryStatement_eq part

/-- An operand below one that is read, before one that would be refused. -/
theorem malformed_reported_within :
    Parse.Doubles (Context.arithmetic []) "f(x, +(...(...(A))), )".toList := by
  have failed : Parse.applied (Context.arithmetic []) "f(x, +(...(...(A))), )" =
      .error (.shape .strayMarker) := by
    decide +kernel
  exact ((malformed_reported (Context.arithmetic []) _ "").2.2.1 .strayMarker).mp failed |>.2

/-- The ellipsis applied to an application of itself is refused by the node in a text and in the
rule of a document, and not reported. -/
theorem doubled_unreported :
    let rule := Json.object
      [("id", .text "a"), ("label", .text "l"), ("expr_prefix", .text "...(...(A))")]
    let document := Json.object [("name", .text "n"), ("rules", .list [rule])]
    Parse.applied (Context.arithmetic []) "...(...(A))" = .error (.shape .strayMarker) ∧
      ¬Fault.IsParse (.shape .strayMarker) ∧
      (ofDocument document).result = .error (.shape .strayMarker) ∧
      ¬Fault.IsRuleSet (.shape .strayMarker) := by
  intro rule document
  refine ⟨by decide +kernel, fun ⟨_, same⟩ => (nomatch same), ?_, fun ⟨_, same⟩ => (nomatch same)⟩
  have doubles : EntryDoubles Context.empty rule := by
    refine ⟨_, rfl, ?_⟩
    have failed : Parse.applied Context.empty "...(...(A))" = .error (.shape .strayMarker) := by
      decide +kernel
    exact ((Parse.appliedChars_eq_shape_iff _ _ _).mp failed).2
  have entered : (ofDocument document).result =
      (enterAllDocumented [] (empty "n" Context.empty none) [rule]).result := rfl
  have unentered : ((empty "n" Context.empty none).enterDocumented [] rule).result =
      .error (.shape .strayMarker) := by
    change (Logged.ofAttempt (entryStatement Context.empty (.rule (.text "a")) rule) >>=
      _).result = _
    rw [Logged.bind_result, Logged.ofAttempt, doubles.entryStatement_eq]
    rfl
  rw [entered, enterAllDocumented, Logged.bind_result, unentered]
  rfl

end RuleSet

end Stepwise
