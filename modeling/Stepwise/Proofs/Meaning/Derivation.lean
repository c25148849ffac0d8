import Stepwise.Proofs.Meaning.Algebra
import Stepwise.Proofs.Parse.Formed
import Stepwise.Proofs.Parse.RoundTrip
import Stepwise.Proofs.Worksheet.Growth
import Stepwise.Proofs.Worksheet.Saturation
import Stepwise.Session.Basic

/-!
Derivations under sound rules: every line means what the first one means. Each way of extending a
history keeps that, the automatic rules included, and so does every run of rule applications.
-/

namespace Stepwise.Interpretation

open Stepwise.Expr

/-- The rule with an identifier, if there is one, is sound. -/
def Allows (I : Interpretation) (settings : Settings) (id : String) : Prop :=
  ∀ rule, settings.catalog.rule? id = some rule → I.IsSound rule

structure IsSoundFor (I : Interpretation) (settings : Settings) : Prop where
  usual : I.Usual
  normalizes : ∀ ν, KeepsLines I ν settings.normalize
  auto : ∀ id ∈ settings.catalog.auto, Allows I settings id

def MeansAs (I : Interpretation) (start e : Expr) : Prop :=
  IsLine e ∧ ∀ ν, I.meaning ν e = I.meaning ν start

def Keeps (I : Interpretation) (start : Expr) (history : History) : Prop :=
  ∀ line ∈ history, I.MeansAs start line.expr

section

variable {I : Interpretation} {settings : Settings} {start : Expr}

theorem MeansAs.trans {middle e : Expr} (first : I.MeansAs start middle)
    (second : I.MeansAs middle e) : I.MeansAs start e :=
  ⟨second.1, fun ν => (second.2 ν).trans (first.2 ν)⟩

theorem IsSound.meansAs {rule : Rule} (sound : I.IsSound rule) (usual : I.Usual) {e result : Expr}
    {address : Address} (means : I.MeansAs start e)
    (applied : rule.applyAt e address = .ok result) : I.MeansAs start result :=
  means.trans (sound.applyAt usual means.1 applied)

theorem IsSoundFor.normalize (sound : I.IsSoundFor settings) {e : Expr}
    (means : I.MeansAs start e) : I.MeansAs start (settings.normalize e) :=
  ⟨(sound.normalizes (fun _ => 0) e means.1).1,
    fun ν => (sound.normalizes ν e means.1).2.trans (means.2 ν)⟩

theorem nextLine_meansAs (sound : I.IsSoundFor settings) {e : Expr} {line : Line}
    (next : settings.IsNextLine e line) (means : I.MeansAs start e) :
    I.MeansAs start line.expr := by
  obtain ⟨id, listed, rule, known, address, result, applied, rfl⟩ := next.origin
  exact sound.normalize ((sound.auto id listed rule known).meansAs sound.usual means applied)

theorem autoRun_keeps (sound : I.IsSoundFor settings) {e last : Expr} {lines : List Line}
    (run : settings.AutoRun e lines last) (means : I.MeansAs start e) : I.Keeps start lines := by
  induction run with
  | done e => simp [Keeps]
  | step next _ ih =>
      have nextMeans := nextLine_meansAs sound next means
      exact List.forall_mem_cons.mpr ⟨nextMeans, ih nextMeans⟩

theorem push_keeps (sound : I.IsSoundFor settings) {history : History}
    (keeps : I.Keeps start history) (action : Action) {e : Expr} (means : I.MeansAs start e) :
    I.Keeps start (settings.push history action e).history := by
  obtain ⟨added, last, grown, _, run, _⟩ := settings.push_runs history action e
  have normal := sound.normalize means
  rw [grown]
  intro line member
  rcases List.mem_append.mp member with old | new
  · exact keeps line old
  · rcases List.mem_cons.mp new with rfl | automatic
    · exact normal
    · exact autoRun_keeps sound run normal line automatic

theorem applyRule_keeps (sound : I.IsSoundFor settings) {history : History}
    (keeps : I.Keeps start history) {id : String} (allowed : Allows I settings id)
    (address : Address) : I.Keeps start (settings.applyRule history id address).history := by
  unfold Settings.applyRule
  split
  · exact keeps
  · exact keeps
  · rename_i rule e known last
    obtain ⟨line, isLast, rfl⟩ := Option.map_eq_some_iff.mp last
    have means := keeps line (List.mem_of_getLast? isLast)
    unfold Settings.tryPush
    split
    · rename_i result applied
      exact push_keeps sound keeps _ ((allowed rule known).meansAs sound.usual means applied)
    · exact keeps
    · exact keeps

theorem derive_keeps (sound : I.IsSoundFor settings) (calls : List (String × Address))
    (allowed : ∀ call ∈ calls, Allows I settings call.1) {history : History}
    (keeps : I.Keeps start history) : I.Keeps start (settings.derive history calls) := by
  induction calls generalizing history with
  | nil => exact keeps
  | cons call calls ih =>
      obtain ⟨id, address⟩ := call
      refine ih (fun other member => allowed other (by simp [member])) ?_
      exact applyRule_keeps sound keeps (allowed (id, address) (by simp)) address

theorem isLine_of_infixed {parameters : List String} {text : String} {e : Expr}
    (parsed : Parse.infixed (Context.arithmetic parameters) text = .ok e) (free : e.MarkerFree) :
    IsLine e :=
  isLine_of_trains (Parse.infixed_formed (Context.arithmetic parameters) parsed) free

theorem mem_of_find?_table {rules : List Rule} {id : String} {rule : Rule}
    (found : Table.find? id (rules.map fun rule => (rule.id, rule)) = some rule) :
    rule ∈ rules ∧ rule.id = id := by
  induction rules with
  | nil => simp [Table.find?] at found
  | cons first rest ih =>
      rw [List.map_cons, Table.find?] at found
      split at found
      · rename_i same
        obtain rfl := Option.some.inj found
        exact ⟨by simp, same⟩
      · obtain ⟨member, same⟩ := ih found
        exact ⟨by simp [member], same⟩

theorem allows_of_algebra (usual : I.Usual) {rs : RuleSet}
    (loaded : RuleSet.algebra.result = .ok rs) (rules : settings.catalog.rules = rs.table)
    {id : String} (other : id ≠ selfDivision) : Allows I settings id := by
  intro rule found
  rw [Catalog.rule?, rules, RuleSet.table] at found
  obtain ⟨member, rfl⟩ := mem_of_find?_table found
  exact algebra_isSound usual loaded member other

theorem isSoundFor_algebra (usual : I.Usual) {rs : RuleSet}
    (loaded : RuleSet.algebra.result = .ok rs) (rules : settings.catalog.rules = rs.table)
    {declared : List String} (context : settings.context = Context.arithmetic declared)
    (normalizer : settings.normalizer = Expr.normalize)
    (auto : selfDivision ∉ settings.catalog.auto) : I.IsSoundFor settings := by
  refine ⟨usual, ?_, ?_⟩
  · intro ν e isLine
    rw [Settings.normalize, context, normalizer]
    exact keepsLines_normalize usual declared e isLine
  · intro id member
    refine allows_of_algebra usual loaded rules ?_
    rintro rfl
    exact auto member

end

theorem algebra_settings {rs : RuleSet} (loaded : RuleSet.algebra.result = .ok rs)
    (parameters : List String) :
    (∃ declared, (Session.settingsOf rs parameters).context = Context.arithmetic declared) ∧
      (Session.settingsOf rs parameters).normalizer = Expr.normalize ∧
      (Session.settingsOf rs parameters).catalog.auto = [] := by
  have frame : (RuleSet.algebra.result.toOption.map fun rs =>
      decide (rs.context = Context.arithmetic [] ∧ rs.normalization = some (.text "algebra") ∧
        rs.auto = [])) = some true := by
    decide +kernel
  rw [loaded] at frame
  simp only [Except.toOption, Option.map_some, Option.some.injEq, decide_eq_true_eq] at frame
  obtain ⟨context, normalization, auto⟩ := frame
  refine ⟨⟨OrderedSet.insertAll [] parameters, ?_⟩, ?_, auto⟩
  · change rs.context.addParameters parameters = _
    rw [context]
    rfl
  · change Session.normalizerOf rs.normalization = _
    rw [normalization]
    rfl

/-- Every line of a derivation by the rules of algebra means what its first line means, under every
valuation. The derivation may begin with the line as it was read, or with its normal form. -/
theorem derivation_sound (I : Interpretation) (usual : I.Usual) (rs : RuleSet)
    (loaded : RuleSet.algebra.result = .ok rs) (settings : Settings) (declared : List String)
    (context : settings.context = Context.arithmetic declared)
    (normalizer : settings.normalizer = Expr.normalize)
    (rules : settings.catalog.rules = rs.table) (auto : selfDivision ∉ settings.catalog.auto)
    (parameters : List String) (text : String) (start : Expr)
    (parsed : Parse.infixed (Context.arithmetic parameters) text = .ok start)
    (free : start.MarkerFree) (action : Action) (calls : List (String × Address))
    (allowed : ∀ call ∈ calls, call.1 ≠ selfDivision) :
    (∃ rest, settings.derive [.byUser action start] calls = .byUser action start :: rest ∧
      ∀ line ∈ rest, ∀ ν, I.meaning ν line.expr = I.meaning ν start) ∧
    (∃ rest, settings.derive (settings.push [] action start).history calls =
        .byUser action (settings.normalize start) :: rest ∧
      ∀ line ∈ rest, ∀ ν, I.meaning ν line.expr = I.meaning ν (settings.normalize start)) := by
  have sound := isSoundFor_algebra usual loaded rules context normalizer auto
  have allows : ∀ call ∈ calls, Allows I settings call.1 :=
    fun call member => allows_of_algebra usual loaded rules (allowed call member)
  have means : I.MeansAs start start := ⟨isLine_of_infixed parsed free, fun ν => rfl⟩
  constructor
  · have seeded : I.Keeps start [Line.byUser action start] := by
      simpa [Keeps, Line.byUser] using means
    have keeps := derive_keeps sound calls allows seeded
    obtain ⟨rest, grown⟩ := settings.derive_grows [.byUser action start] calls
    refine ⟨rest, grown.symm, ?_⟩
    intro line member ν
    exact (keeps line (by rw [← grown]; simp [member])).2 ν
  · have normal := sound.normalize means
    have pushed := push_keeps sound (by simp [Keeps] : I.Keeps start []) action means
    have keeps := derive_keeps sound calls allows pushed
    have prefixed := (settings.push_grows [] action start).trans
      (settings.derive_grows (settings.push [] action start).history calls)
    obtain ⟨rest, grown⟩ := prefixed
    refine ⟨rest, grown.symm, ?_⟩
    intro line member ν
    rw [normal.2 ν]
    exact (keeps line (by rw [← grown]; simp [member])).2 ν

theorem scan_sum : Token.scan "x + 0" = ["x", "+", "0"] := by
  have chars : "x + 0".toList = ['x', ' ', '+', ' ', '0'] := by decide +kernel
  have last : Token.scanChars [' ', '0'] = [['0']] := by
    rw [Token.scanChars_of_trim (by decide +kernel : _ = ['0'])]
    exact congrArg _ (Token.scanChars_of_blank (by decide +kernel))
  have middle : Token.scanChars [' ', '+', ' ', '0'] = [['+'], ['0']] := by
    rw [Token.scanChars_of_trim (by decide +kernel : _ = ['+', ' ', '0'])]
    exact congrArg _ last
  have all : Token.scanChars ['x', ' ', '+', ' ', '0'] = [['x'], ['+'], ['0']] := by
    rw [Token.scanChars_of_trim (by decide +kernel : _ = ['x', ' ', '+', ' ', '0'])]
    exact congrArg _ middle
  rw [Token.scan, chars, all]
  decide +kernel

theorem infixed_sum :
    Parse.infixed (Context.arithmetic []) "x + 0" = .ok (.binary "+" (var "x") (const "0")) := by
  rw [Parse.infixed, scan_sum, Parse.tokens]
  simp +decide only [Parse.operation, Parse.operand, Parse.operators, ↓reduceIte]
  decide +kernel

/-- A step that can be taken and one that cannot, from `x + 0`. -/
theorem derivation_sound_sum : ∃ rs, RuleSet.algebra.result = .ok rs ∧
    ∃ rest, (Session.settingsOf rs []).derive
        [.byUser (.introduce none) (.binary "+" (var "x") (const "0"))]
        [("algebra/add_zero/0", .root), ("algebra/mul_one/0", .root)] =
      .byUser (.introduce none) (.binary "+" (var "x") (const "0")) :: rest ∧
      ∀ line ∈ rest, ∀ ν, standard.meaning ν line.expr =
        standard.meaning ν (.binary "+" (var "x") (const "0")) := by
  have isLoaded : ∃ rs, RuleSet.algebra.result = .ok rs := by
    have some : RuleSet.algebra.result.toOption.isSome = true := by decide +kernel
    cases loaded : RuleSet.algebra.result with
    | ok rs => exact ⟨rs, rfl⟩
    | error fault =>
        rw [loaded] at some
        simp [Except.toOption] at some
  obtain ⟨rs, loaded⟩ := isLoaded
  obtain ⟨⟨declared, context⟩, normalizer, auto⟩ := algebra_settings loaded []
  refine ⟨rs, loaded, ?_⟩
  exact (derivation_sound standard standard_usual rs loaded (Session.settingsOf rs []) declared
    context normalizer rfl (by simp [auto]) [] "x + 0" _ infixed_sum (by decide) (.introduce none)
    [("algebra/add_zero/0", .root), ("algebra/mul_one/0", .root)] (by decide)).1

end Stepwise.Interpretation
