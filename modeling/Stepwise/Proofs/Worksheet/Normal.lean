import Stepwise.Proofs.Algebra.Regular
import Stepwise.Proofs.Parse.Regular
import Stepwise.Proofs.Session.Sound

/-!
Under the rules of algebra the lines of a worksheet stay in normal form, whatever is done with its
derivations, unless a substitution from a label captures the marker of a variadic train as the only
copy of what is substituted for.
-/

namespace Stepwise

open Stepwise.Expr

namespace Settings

/-- The suggestion substitutes from a labelled equation, and a single copy of the variadic trains on
its left side is matched. -/
inductive Captures (settings : Settings) (history : History) (selection : List Address)
    (index : Int) : Prop
  | intro {available : List Suggestion} {label : String} {lhs rhs e part result : Expr}
      {address : Address} : settings.suggestions history selection = .ok available →
        Index.forward? available index = some (.step ("Substitute from " ++ label), result) →
          history.last? = some e → selection.getLast? = some address →
            (label, equation lhs rhs) ∈ settings.labels →
              e.byEquationAt (equation lhs rhs) address = .ok result →
                e.resolve address = .ok part → part.BindsSingle lhs →
                  Captures settings history selection index

def Uncaptured (settings : Settings) (history : History) (selection : List Address) (index : Int) :
    Prop :=
  ¬settings.Captures history selection index

end Settings

/-- A worksheet, and the derivations that were taken from it or made of those. -/
structure Desk where
  worksheet : Worksheet
  atHand : List History

namespace Desk

/-- What can be done: derivations are started, taken from the worksheet, worked on and stored. A
condition says which suggestions are taken. -/
inductive Step (allows : Settings → History → List Address → Int → Prop) (desk : Desk) : Desk → Prop
  | introduce {names : List String} {text : String} {e : Expr} :
      Parse.infixed (Context.arithmetic names) text = .ok e →
        Step allows desk { desk with worksheet := desk.worksheet.introduce e }
  | introduceLabelled (label : String) {next : Worksheet} :
      desk.worksheet.introduceLabelled label = .ok next →
        Step allows desk { desk with worksheet := next }
  | checkOut (index : Int) {history : History} : desk.worksheet.sequence index = .ok history →
      Step allows desk { desk with atHand := history :: desk.atHand }
  | applyRule (id : String) (address : Address) {history : History} {applied : Bool} :
      history ∈ desk.atHand →
        (desk.worksheet.settings.applyRule history id address).result = .ok applied →
          Step allows desk { desk with
            atHand := (desk.worksheet.settings.applyRule history id address).history :: desk.atHand }
  | take (selection : List Address) (index : Int) {history : History} {taken : Bool} :
      history ∈ desk.atHand → allows desk.worksheet.settings history selection index →
        (desk.worksheet.settings.takeSuggestion history selection index).result = .ok taken →
          Step allows desk { desk with
            atHand := (desk.worksheet.settings.takeSuggestion history selection index).history ::
              desk.atHand }
  | label (label : Option String) (index : Int) {history next : History} :
      history ∈ desk.atHand → history.withLabel label index = .ok next →
        Step allows desk { desk with atHand := next :: desk.atHand }
  | reset (index : Int) {history next : History} :
      history ∈ desk.atHand → history.resetTo index = .ok next →
        Step allows desk { desk with atHand := next :: desk.atHand }
  | store (index : Int) {history : History} {next : Worksheet} :
      history ∈ desk.atHand → (desk.worksheet.store index history).result = .ok next →
        Step allows desk { desk with worksheet := next }

inductive Reached (allows : Settings → History → List Address → Int → Prop) : Desk → Prop
  | start {rules : RuleSet} (parameters : List String) : RuleSet.algebra.result = .ok rules →
      Reached allows ⟨.ofSettings (Session.settingsOf rules parameters), []⟩
  | step {desk next : Desk} : Reached allows desk → desk.Step allows next → Reached allows next

end Desk

namespace Line

def IsNormal (ctx : Context) (line : Line) : Prop :=
  line.expr.Tidy ["+", "*"] ∧
    (line.action.introduces = false → Expr.normalize ctx line.expr = line.expr)

theorem isNormal_of_same {ctx : Context} {line other : Line} (normal : line.IsNormal ctx)
    (action : other.action = line.action) (expr : other.expr = line.expr) : other.IsNormal ctx := by
  unfold IsNormal
  rw [action, expr]
  exact normal

end Line

namespace History

def IsNormal (ctx : Context) (history : History) : Prop := ∀ line ∈ history, line.IsNormal ctx

variable {ctx : Context} {history next : History}

theorem IsNormal.last (normal : history.IsNormal ctx) {e : Expr} (newest : history.last? = some e) :
    e.Tidy ["+", "*"] := by
  obtain ⟨line, final, rfl⟩ := Option.map_eq_some_iff.mp newest
  exact (normal line (List.mem_of_getLast? final)).1

theorem IsNormal.withLabel (normal : history.IsNormal ctx) {label : Option String} {index : Int}
    (named : history.withLabel label index = .ok next) : next.IsNormal ctx := by
  have kept : next.map (fun line => (line.action, line.expr)) =
      history.map fun line => (line.action, line.expr) := withLabel_map (fun _ _ => rfl) named
  intro line member
  have known := List.mem_map_of_mem (f := fun line : Line => (line.action, line.expr)) member
  rw [kept] at known
  obtain ⟨old, inHistory, same⟩ := List.mem_map.mp known
  obtain ⟨action, expr⟩ := Prod.mk.inj same
  exact Line.isNormal_of_same (normal old inHistory) action.symm expr.symm

theorem IsNormal.resetTo (normal : history.IsNormal ctx) {index : Int}
    (dropped : history.resetTo index = .ok next) : next.IsNormal ctx := by
  rw [resetTo_eq_ok dropped]
  exact fun line member => normal line (List.mem_of_mem_take member)

end History

namespace Settings

/-- What the settings have to offer is regular, and lines are brought to the normal form of
algebra. -/
structure IsTidy (settings : Settings) : Prop where
  context : ∃ declared, settings.context = Context.arithmetic declared
  normalizer : settings.normalizer = Expr.normalize
  provider : settings.provider = Expr.suggest
  quiet : settings.catalog.auto = []
  rules : ∀ id rule, settings.catalog.rule? id = some rule → rule.IsRegular
  labels : ∀ pair ∈ settings.labels, pair.2.Tidy ["+", "*"]

variable {settings : Settings} {history : History}

theorem isTidy_algebra {rules : RuleSet} (loaded : RuleSet.algebra.result = .ok rules)
    (parameters : List String) : (Session.settingsOf rules parameters).IsTidy := by
  obtain ⟨context, normalizer, quiet⟩ := Interpretation.algebra_settings loaded parameters
  exact ⟨context, normalizer, rfl, quiet, fun id rule found =>
    Rule.isRegular_of_algebra loaded rule (Interpretation.mem_of_find?_table found).1,
    List.forall_mem_nil _⟩

theorem IsTidy.push (tidy : settings.IsTidy) (normal : history.IsNormal settings.context)
    (action : Action) {e : Expr} (regular : e.Regular ["+", "*"] loose) :
    (settings.push history action e).history.IsNormal settings.context := by
  obtain ⟨declared, context⟩ := tidy.context
  have settled := regular.normalize (Context.isAlgebraic_arithmetic declared)
  rw [push_quiet tidy.quiet]
  intro line member
  rcases List.mem_append.mp member with old | new
  · exact normal line old
  · obtain rfl := List.mem_singleton.mp new
    simp only [Line.IsNormal, Line.byUser, normalize, tidy.normalizer, context]
    exact ⟨settled.1, fun _ => settled.2⟩

theorem IsTidy.applyRule (tidy : settings.IsTidy) (normal : history.IsNormal settings.context)
    (id : String) (address : Address) :
    (settings.applyRule history id address).history.IsNormal settings.context := by
  unfold Settings.applyRule
  split
  · exact normal
  · exact normal
  · rename_i rule e known newest
    unfold tryPush
    split
    · rename_i result applied
      have regular := (tidy.rules id rule known).applyAt (normal.last newest) applied
      exact tidy.push normal _ (regular.of_several fun _ _ => loose_of_several)
    · exact normal
    · exact normal

theorem Suggested.regular (tidy : settings.IsTidy) {e result : Expr} {address : Address}
    {action : Action} (line : e.Tidy ["+", "*"])
    (free : ∀ label lhs rhs part, action = .step ("Substitute from " ++ label) →
      (label, equation lhs rhs) ∈ settings.labels →
        e.byEquationAt (equation lhs rhs) address = .ok result → e.resolve address = .ok part →
          ¬part.BindsSingle lhs)
    (suggested : settings.Suggested e address action result) :
    result.Regular ["+", "*"] loose := by
  have relaxed {e : Expr} (regular : e.Regular ["+", "*"] several) :
      e.Regular ["+", "*"] loose := regular.of_several fun _ _ => loose_of_several
  cases suggested with
  | @substitution label labelled _ member turned =>
      obtain ⟨lhs, rhs, rfl⟩ : ∃ lhs rhs, labelled = equation lhs rhs := by
        obtain ⟨target, _, rest⟩ := Attempt.bind_eq_ok.mp turned
        obtain ⟨image, stepped, _⟩ := Attempt.bind_eq_ok.mp rest
        obtain ⟨lhs, rhs, same, _⟩ := byEquation_eq_ok stepped
        exact ⟨lhs, rhs, same⟩
      refine relaxed (line.byEquationAt (Or.inr line.unpaired) ?_ turned).1
      intro target resolved regular
      exact keepsRegular_of_not_single (tidy.labels _ member).toRegular regular
        (free label lhs rhs target rfl member turned resolved)
  | rule known applied => exact relaxed ((tidy.rules _ _ known).applyAt line applied)
  | algebra step => exact step.regular line

theorem IsTidy.takeSuggestion (tidy : settings.IsTidy) (normal : history.IsNormal settings.context)
    {selection : List Address} {index : Int} (free : settings.Uncaptured history selection index) :
    (settings.takeSuggestion history selection index).history.IsNormal settings.context := by
  unfold Settings.takeSuggestion
  split
  · exact normal
  · rename_i available listed
    split
    · rename_i action result chosen
      have member := Index.mem_of_forward? chosen
      cases newest : history.last? with
      | none =>
          rw [suggestions, newest] at listed
          obtain rfl := Except.ok.inj listed
          simp at member
      | some e =>
          obtain ⟨address, final, suggested⟩ :=
            (suggestions_finds tidy.provider newest).value listed _ member
          refine tidy.push normal action (suggested.regular tidy (normal.last newest) ?_)
          intro label lhs rhs part named known turned resolved single
          dsimp only at named
          subst named
          exact free (.intro listed chosen newest final known turned resolved single)
    · exact normal

theorem IsTidy.uncaptured (tidy : settings.IsTidy) (normal : history.IsNormal settings.context)
    (free : ∀ e, history.last? = some e → e.MarkerFree) (selection : List Address) (index : Int) :
    settings.Uncaptured history selection index := by
  rintro ⟨_, _, newest, _, member, _, resolved, single⟩
  have line := normal.last newest
  have formed := (formed_iff_plain _).mpr ⟨line.shaped, free _ newest⟩
  have plain := (formed_iff_plain _).mp (formed.resolve (fun _ => rfl) resolved)
  have sides := (tidy.labels _ member).toRegular
  exact not_bindsSingle_of_plain (line.resolve resolved) (sides.child (List.mem_cons_self ..))
    sides.shaped.sides.1.2 (Or.inr plain.2) single

theorem IsTidy.publish (tidy : settings.IsTidy) (normal : history.IsNormal settings.context) :
    (Worksheet.publish settings history).1.IsTidy := by
  have published := Worksheet.publish_isPublished settings history
  have labels := published.forall_labels tidy.labels fun line member => (normal line member).1
  rw [published.others]
  exact ⟨tidy.context, tidy.normalizer, tidy.provider, tidy.quiet, tidy.rules, labels⟩

end Settings

/-! Worksheets. -/

namespace Desk

/-- The settings are tidy, and so is every line; those that introduce nothing are in normal form. -/
structure IsNormal (desk : Desk) : Prop where
  settings : desk.worksheet.settings.IsTidy
  histories : ∀ history ∈ desk.atHand ++ desk.worksheet.sequences,
    history.IsNormal desk.worksheet.settings.context

variable {desk next : Desk}

theorem IsNormal.held (normal : desk.IsNormal) {history : History} (member : history ∈ desk.atHand) :
    history.IsNormal desk.worksheet.settings.context :=
  normal.histories history (List.mem_append_left _ member)

theorem IsNormal.hold (normal : desk.IsNormal) {history : History}
    (here : history.IsNormal desk.worksheet.settings.context) :
    IsNormal { desk with atHand := history :: desk.atHand } :=
  ⟨normal.settings, List.forall_mem_cons.mpr ⟨here, normal.histories⟩⟩

theorem IsNormal.begin (normal : desk.IsNormal) (source : Option String) {e : Expr}
    (tidy : e.Tidy ["+", "*"]) :
    IsNormal { desk with worksheet := desk.worksheet.start (.introduce source) e } := by
  have begun : History.IsNormal desk.worksheet.settings.context [.byUser (.introduce source) e] := by
    simpa [History.IsNormal, Line.IsNormal, Line.byUser, Action.introduces] using tidy
  refine ⟨normal.settings, fun history member => ?_⟩
  rcases List.mem_append.mp member with held | stored
  · exact normal.held held
  · rcases List.mem_append.mp stored with old | new
    · exact normal.histories history (List.mem_append_right _ old)
    · exact List.mem_singleton.mp new ▸ begun

theorem IsNormal.store (normal : desk.IsNormal) {history : History} (member : history ∈ desk.atHand)
    {index : Int} {stored : Worksheet}
    (result : (desk.worksheet.store index history).result = .ok stored) :
    IsNormal { desk with worksheet := stored } := by
  have here := normal.held member
  unfold Worksheet.store at result
  split at result
  · exact absurd result (by simp [Logged.ofAttempt])
  · rename_i sequences changed
    obtain rfl := Except.ok.inj result
    obtain ⟨place, _, rfl⟩ := Index.set?_eq_some changed
    have published := (Worksheet.publish_isPublished desk.worksheet.settings history).others
    refine ⟨normal.settings.publish here, fun other inside => ?_⟩
    have context : (Worksheet.publish desk.worksheet.settings history).1.context =
        desk.worksheet.settings.context := by rw [published]
    change other.IsNormal (Worksheet.publish desk.worksheet.settings history).1.context
    rw [context]
    rcases List.mem_append.mp inside with held | stored
    · exact normal.held held
    · rcases List.mem_or_eq_of_mem_set stored with old | rfl
      · exact normal.histories other (List.mem_append_right _ old)
      · exact here

theorem IsNormal.step (normal : desk.IsNormal) (step : desk.Step Settings.Uncaptured next) :
    next.IsNormal := by
  cases step with
  | introduce parsed =>
      exact normal.begin none (Parse.infixed_tidy (by simp [Context.arithmetic]) parsed)
  | introduceLabelled label found =>
      obtain ⟨e, known, same⟩ := Attempt.bind_eq_ok.mp found
      obtain rfl := Except.ok.inj same
      exact normal.begin _ (normal.settings.labels _ (Worksheet.mem_of_labelled known))
  | checkOut index found =>
      refine normal.hold (normal.histories _ (List.mem_append_right _ ?_))
      unfold Worksheet.sequence at found
      split at found
      · rename_i history here
        obtain rfl := Except.ok.inj found
        exact Index.mem_of_get? here
      · simp at found
  | applyRule id address member =>
      exact normal.hold (normal.settings.applyRule (normal.held member) id address)
  | take selection index member free =>
      exact normal.hold (normal.settings.takeSuggestion (normal.held member) free)
  | label label index member named => exact normal.hold ((normal.held member).withLabel named)
  | reset index member dropped => exact normal.hold ((normal.held member).resetTo dropped)
  | store index member result => exact normal.store member result

theorem Reached.isNormal (reached : desk.Reached Settings.Uncaptured) : desk.IsNormal := by
  induction reached with
  | start parameters loaded =>
      exact ⟨Settings.isTidy_algebra loaded parameters, by simp [Worksheet.ofSettings]⟩
  | step _ step ih => exact ih.step step

/-- Every line that introduces nothing is in normal form, in the derivations at hand and in those
that are stored, if no substitution from a label captures a marker. From a line without markers, any
suggestion may be taken. -/
theorem reached_lines_normal (desk : Desk) (reached : desk.Reached Settings.Uncaptured) :
    (∀ history ∈ desk.atHand ++ desk.worksheet.sequences, ∀ line ∈ history,
      line.action.introduces = false →
        Expr.normalize desk.worksheet.settings.context line.expr = line.expr) ∧
      ∀ history ∈ desk.atHand, (∀ e, history.last? = some e → e.MarkerFree) →
        ∀ selection index, desk.worksheet.settings.Uncaptured history selection index := by
  have normal := reached.isNormal
  constructor
  · exact fun history member line inside => (normal.histories history member line inside).2
  · exact fun history member free => normal.settings.uncaptured (normal.held member) free

theorem reached_lines_normal_sum : ∃ desk : Desk, desk.Reached Settings.Uncaptured ∧
    ∃ history ∈ desk.atHand,
      history.map Line.expr = [binary "+" (var "x") (const "0"), var "x"] ∧
      ∀ line ∈ history, line.action.introduces = false →
        Expr.normalize desk.worksheet.settings.context line.expr = line.expr := by
  have taken : (RuleSet.algebra.result.toOption.map fun rules =>
      let run := (Session.settingsOf rules []).takeSuggestion
        [.byUser (.introduce none) (binary "+" (var "x") (const "0"))] [.root] 0
      (run.history.map Line.expr, run.result)) =
        some ([binary "+" (var "x") (const "0"), var "x"], .ok true) := by
    decide +kernel
  obtain ⟨rules, loaded, _⟩ := Session.start_algebra
  rw [loaded] at taken
  simp only [Except.toOption, Option.map_some, Option.some.injEq, Prod.mk.injEq] at taken
  have uncaptured : (Session.settingsOf rules []).Uncaptured
      [.byUser (.introduce none) (binary "+" (var "x") (const "0"))] [.root] 0 := by
    rintro ⟨_, _, _, _, member, _⟩
    exact absurd member List.not_mem_nil
  have fresh : Reached Settings.Uncaptured _ := .start [] loaded
  have begun := (fresh.step (.introduce Interpretation.infixed_sum)).step (.checkOut 0 rfl)
  have stepped := begun.step (.take [.root] 0 (List.mem_cons_self ..) uncaptured taken.2)
  refine ⟨_, stepped, _, List.mem_cons_self .., taken.1, ?_⟩
  exact (reached_lines_normal _ stepped).1 _ (List.mem_cons_self ..)

def productEquation : Expr :=
  equation (variadicTrain "*" (var "A")) (variadicTrain "*" (binary "+" (var "p") (var "q")))

def sumWithProduct : Expr := binary "+" (var "u") (variadicTrain "*" (var "C"))

def nestedSum : Expr := binary "+" (var "u") (binary "+" (var "p_1") (var "q_1"))

theorem infixed_productEquation :
    Parse.infixed (Context.arithmetic []) "A * ... = (p + q) * ..." = .ok productEquation := by
  have scanned : Token.scan "A * ... = (p + q) * ..." =
      ["A", "*", "...", "=", "(", "p", "+", "q", ")", "*", "..."] := by
    decide +kernel
  rw [Parse.infixed, scanned, Parse.tokens]
  simp +decide only [Parse.operation, Parse.operand, Parse.operators, List.tail_cons, ↓reduceIte]
  decide +kernel

theorem infixed_sumWithProduct :
    Parse.infixed (Context.arithmetic []) "u + (C * ...)" = .ok sumWithProduct := by
  have scanned : Token.scan "u + (C * ...)" = ["u", "+", "(", "C", "*", "...", ")"] := by
    decide +kernel
  rw [Parse.infixed, scanned, Parse.tokens]
  simp +decide only [Parse.operation, Parse.operand, Parse.operators, List.tail_cons, ↓reduceIte]
  decide +kernel

/-- The equation captures the marker of the product as its only factor, and the sum that takes the
place of the product is not merged with the sum around it. -/
theorem reached_line_abnormal : ∃ desk : Desk, desk.Reached (fun _ _ _ _ => True) ∧
    ∃ history ∈ desk.atHand, ∃ line ∈ history, line.action.introduces = false ∧
      line.expr = nestedSum ∧
      Expr.normalize desk.worksheet.settings.context line.expr ≠ line.expr := by
  have taken : (RuleSet.algebra.result.toOption.map fun rules =>
      let settings := { Session.settingsOf rules [] with labels := [("L", productEquation)] }
      let run := settings.takeSuggestion [.byUser (.introduce none) sumWithProduct] [.ofPath [1]] 0
      (run.history, run.result)) =
        some ([.byUser (.introduce none) sumWithProduct,
          .byUser (.step "Substitute from L") nestedSum], .ok true) := by
    decide +kernel
  have abnormal : Expr.normalize (Context.arithmetic []) nestedSum ≠ nestedSum := by decide +kernel
  obtain ⟨rules, loaded, context, _⟩ := Session.start_algebra
  rw [loaded] at taken
  simp only [Except.toOption, Option.map_some, Option.some.injEq, Prod.mk.injEq] at taken
  -- The equation is labelled in the first derivation and used in the second one.
  have fresh : Reached (fun _ _ _ _ => True) _ := .start [] loaded
  have held := (fresh.step (.introduce infixed_productEquation)).step (.checkOut 0 rfl)
  have named := held.step (.label (some "L") 0 (List.mem_cons_self ..) rfl)
  have stored := named.step (.store 0 (List.mem_cons_self ..) rfl)
  have begun := (stored.step (.introduce infixed_sumWithProduct)).step (.checkOut 1 rfl)
  have stepped := begun.step (.take [.ofPath [1]] 0 (List.mem_cons_self ..) trivial taken.2)
  refine ⟨_, stepped, _, List.mem_cons_self .., .byUser (.step "Substitute from L") nestedSum, ?_,
    rfl, rfl, ?_⟩
  · exact (congrArg (Line.byUser (.step "Substitute from L") nestedSum ∈ ·) taken.1).mpr (by simp)
  · change Expr.normalize (rules.context.addParameters []) nestedSum ≠ nestedSum
    rw [context]
    exact abnormal

end Desk

end Stepwise
