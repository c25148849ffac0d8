import Stepwise.Proofs.Deduction.Recovery
import Stepwise.Proofs.Parse.Formed
import Stepwise.Proofs.Worksheet.Growth
import Stepwise.Proofs.Worksheet.Saturation
import Stepwise.Proofs.Worksheet.Store
import Stepwise.Session.Work

/-!
What a request can do to a session, and how it can break off: everything that is known of requests
in general follows from these cases.
-/

namespace Stepwise

def Action.introduces : Action → Bool
  | introduce _ => true
  | _ => false

def Request.introduces : Request → Bool
  | .worksheet (.introduce _) | .worksheet (.introduceLabelled _) => true
  | _ => false

/-- The requests that are answered with the last line of the derivation at hand. -/
def Request.tellsLast : Request → Bool
  | .worksheet (.take ..) | .worksheet (.applyRule ..) | .worksheet (.reset _) => true
  | _ => false

theorem Request.introduces_of_tellsLast {request : Request} (tells : request.tellsLast = true) :
    request.introduces = false := by
  unfold tellsLast at tells
  split at tells
  · rfl
  · rfl
  · rfl
  · simp at tells

namespace Settings

inductive Offers (settings : Settings) (history : History) : Action → Expr → Prop
  | rule {id : String} {rule : Rule} {last e : Expr} {address : Address} :
      settings.catalog.rule? id = some rule → history.last? = some last →
        rule.applyAt last address = .ok e → Offers settings history (.rule rule.label) e
  | suggestion {selection : List Address} {available : List Suggestion} {action : Action}
      {e : Expr} : settings.suggestions history selection = .ok available →
        (action, e) ∈ available → Offers settings history action e

inductive Reworks (settings : Settings) (history : History) : History → Prop
  | push {action : Action} {e : Expr} : settings.Offers history action e →
      (settings.push history action e).result = .ok () →
        Reworks settings history (settings.push history action e).history
  | label {label : Option String} {index : Int} {labelled : History} :
      history.withLabel label index = .ok labelled → Reworks settings history labelled
  | reset {index : Int} {kept : History} :
      history.resetTo index = .ok kept → Reworks settings history kept

end Settings

theorem Action.said_eq_error {action : Action} {fault : Fault}
    (unsaid : action.said = .error fault) :
    ∃ literal kind, action = .rule (.other literal kind) ∧
      fault = .missing (.ability kind .text) := by
  unfold said at unsaid
  split at unsaid
  · exact ⟨_, _, rfl, (Except.error.inj unsaid).symm⟩
  · simp at unsaid

theorem History.exists_withLabel (history : History) (label : Option String) {index : Int}
    (positive : 0 ≤ index) (inside : index < history.length) :
    ∃ labelled, history.withLabel label index = .ok labelled := by
  obtain ⟨place, rfl⟩ := Int.eq_ofNat_of_zero_le positive
  have bound : place < history.length := by omega
  exact ⟨_, withLabel_eq_ok (List.getElem?_eq_getElem bound) label⟩

theorem Settings.push_fault {settings : Settings} {history : History} {action : Action} {e : Expr}
    {fault : Fault} (failed : (settings.push history action e).result = .error fault) :
    fault.isInvalidArgument = true := by
  obtain ⟨added, last, _, _, _, ends⟩ := settings.push_runs history action e
  rw [failed] at ends
  obtain ⟨trial, _, raised, notSkipped⟩ := ends
  refine ((trial.rule.applyAt_recovers last trial.address).fault raised).resolve_left ?_
  rintro ⟨cause, rfl⟩
  exact notSkipped ⟨cause, raised⟩

theorem Settings.push_ne_nil (settings : Settings) (history : History) (action : Action)
    (e : Expr) : (settings.push history action e).history ≠ [] := by
  intro empty
  have grown := settings.push_grows history action e
  rw [empty] at grown
  simp at grown

theorem Settings.Reworks.ne_nil {settings : Settings} {history next : History}
    (reworks : settings.Reworks history next) (nonempty : history ≠ []) : next ≠ [] := by
  cases reworks with
  | push _ _ => exact settings.push_ne_nil history _ _
  | label named =>
      have kept : next.map Line.expr = history.map Line.expr :=
        History.withLabel_map (fun _ _ => rfl) named
      rintro rfl
      exact nonempty (List.map_eq_nil_iff.mp kept.symm)
  | reset dropped =>
      rw [History.resetTo_eq_ok dropped]
      simpa using nonempty

namespace Session

def put (s : Session) (index : Nat) (history : History) : Session :=
  { s with worksheet := ⟨(Worksheet.publish s.worksheet.settings history).1,
      s.worksheet.sequences.set index history⟩ }.hold index history

def settled (s : Session) : Session :=
  match s.current with
  | none => s
  | some (index, history) => s.put index history

/-- There is an index exactly if there is a derivation at hand, and it has the settings of the
worksheet. -/
structure Paired (s : Session) : Prop where
  index : s.index = none ↔ s.sequence = none
  shared : ∀ worked, s.sequence = some worked →
    worked.settings = s.worksheet.settings ∧ worked.generation = s.generation

structure Placed (s : Session) : Prop where
  paired : s.Paired
  stored : ∀ history ∈ s.worksheet.sequences, history ≠ []
  current : ∀ index history, s.current = some (index, history) →
    index < s.worksheet.sequences.length ∧ history ≠ []

def started (s : Session) (source : Option String) (e : Expr) : Session :=
  { s with worksheet := s.worksheet.start (.introduce source) e }

def opened (s : Session) (source : Option String) (e : Expr) : Session :=
  (s.started source e).settled.hold s.worksheet.sequences.length [.byUser (.introduce source) e]

inductive Starts (s : Session) : Option String → Expr → Prop
  | written {text : String} {e : Expr} :
      Parse.infixed s.worksheet.settings.context text = .ok e → Starts s none e
  | labelled {label : String} {e : Expr} :
      s.worksheet.settings.labelled label = .ok e → Starts s (some label) e

/-- The actions whose texts a request is to be answered with, given the session after it. -/
inductive Tells (s next : Session) : Request → Action → Prop
  | listed {index : Nat} {history : History} {action : Action} :
      s.current = some (index, history) → action ∈ history.map Line.action →
        Tells s next (.worksheet .list) action
  | offered {index : Nat} {history : History} {addresses : List String} {selection : List Address}
      {available : List Suggestion} {action : Action} {e : Expr} :
      s.current = some (index, history) → readSelection addresses = .ok selection →
        s.worksheet.settings.suggestions history selection = .ok available →
        (action, e) ∈ available → Tells s next (.worksheet (.suggest addresses)) action
  | last {request : Request} {index : Nat} {history : History} {action : Action} :
      request.tellsLast = true → next.current = some (index, history) →
        history.getLast?.map Line.action = some action → Tells s next request action

inductive Breaks (s : Session) : Request → Fault → Prop
  | load {path : String} {fault : Fault} : Breaks s (.session (.load path)) fault
  | suggestions {request : Request} {index : Nat} {history : History} {addresses : List String}
      {selection : List Address} {fault : Fault} :
      (request = .worksheet (.suggest addresses) ∨
        ∃ number, request = .worksheet (.take number addresses)) →
      s.current = some (index, history) → readSelection addresses = .ok selection →
        s.worksheet.settings.suggestions history selection = .error fault →
        fault.isInvalidArgument = false → Breaks s request fault
  | unsaid {request : Request} {action : Action} {fault : Fault} : s.Tells s request action →
      action.said = .error fault → Breaks s request fault

/-- The session after a request, and how the request ends. -/
inductive Change (s : Session) (request : Request) :
    Session → Except Failure (Option String) → Prop
  | answered {said : Option String} (running : Bool) : request.introduces = false →
      Change s request { s with running := running } (.ok said)
  | declared {said : Option String} (names : List String) : request.introduces = false →
      Change s request (s.declare names) (.ok said)
  | loaded {files : Files} {path : String} {rules : RuleSet} {said : Option String} :
      request = .session (.load path) → (RuleSet.load files path).result = .ok (.ok rules) →
        Change s request (s.useRules rules) (.ok said)
  | misfit {files : Files} {path : String} {rules : RuleSet} {fault : Fault} :
      request = .session (.load path) → (RuleSet.load files path).result = .ok (.ok rules) →
        Change s request { s with rules := rules } (.error (.broken fault))
  | opened {source : Option String} {e : Expr} {said : Option String} :
      request.introduces = true → s.Starts source e →
        Change s request (s.opened source e) (.ok said)
  | turned {index : Nat} {history : History} {said : Option String} :
      request.introduces = false → s.settled.worksheet.sequences[index]? = some history →
        Change s request (s.settled.hold index history) (.ok said)
  | saved {index : Nat} {history next : History} {said : Option String} :
      request.introduces = false → s.current = some (index, history) →
        s.worksheet.settings.Reworks history next →
        Change s request (s.put index next) (.ok said)
  | unsaid {index : Nat} {history next : History} {line : Line} {fault : Fault} :
      request.tellsLast = true → s.current = some (index, history) →
        s.worksheet.settings.Reworks history next → next.getLast? = some line →
        line.action.said = .error fault →
        Change s request (s.put index next) (.error (.broken fault))
  | refused {cause : Refusal} : Change s request s (.error (.refused cause))
  | broken {fault : Fault} : s.Breaks request fault →
      Change s request s (.error (.broken fault))
  | interrupted {index : Nat} {history : History} {action : Action} {e : Expr} {fault : Fault}
      {cause : Refusal} : request.introduces = false → s.current = some (index, history) →
        s.worksheet.settings.Offers history action e →
        (s.worksheet.settings.push history action e).result = .error fault →
        Change s request (s.hold index (s.worksheet.settings.push history action e).history)
          (.error (.refused cause))

def Answers (s : Session) (request : Request) (reply : Reply) : Prop :=
  s.Change request reply.session reply.result

end Session

theorem Failure.ofFault_cases (fault : Fault) :
    (∃ cause, ofFault fault = .refused cause) ∨
      (ofFault fault = .broken fault ∧ fault.isInvalidArgument = false) := by
  unfold ofFault
  split
  · exact Or.inl ⟨_, rfl⟩
  · split
    · exact Or.inl ⟨_, rfl⟩
    · rename_i valid
      exact Or.inr ⟨rfl, by simpa using valid⟩

theorem Failure.ofFault_of_invalid {fault : Fault} (invalid : fault.isInvalidArgument = true) :
    ∃ cause, ofFault fault = .refused cause := by
  rcases ofFault_cases fault with refused | ⟨_, valid⟩
  · exact refused
  · simp [invalid] at valid

theorem Failure.ofFault_of_unread {fault : Fault} (unread : fault.IsUnread) :
    ∃ cause, ofFault fault = .refused cause := by
  rcases unread with ⟨cause, rfl⟩ | ⟨cause, rfl⟩
  · exact ⟨_, rfl⟩
  · exact ofFault_of_invalid rfl

theorem Failure.ofFault_of_unsaid {action : Action} {fault : Fault}
    (unsaid : action.said = .error fault) : ofFault fault = .broken fault := by
  obtain ⟨_, _, _, rfl⟩ := Action.said_eq_error unsaid
  rfl

theorem readNumber_ends (written : String) :
    (readNumber written).Ends (fun _ => True) fun fault => fault.isInvalidArgument = true := by
  unfold readNumber
  split
  · trivial
  · rfl

theorem readAddress_ends (written : String) :
    (readAddress written).Ends (fun _ => True) fun fault => fault.isInvalidArgument = true := by
  unfold readAddress
  split
  · trivial
  · rfl

theorem readSelection_ends (written : List String) :
    (readSelection written).Ends (fun _ => True) fun fault => fault.isInvalidArgument = true := by
  unfold readSelection
  split
  · rfl
  · exact (Attempt.ends_mapM fun part _ => readAddress_ends part).imp (fun _ _ _ => trivial)
      fun _ invalid => invalid

namespace Session

section

variable {s : Session} {request : Request}

theorem Answers.after {reply : Reply} (answers : s.Answers request reply)
    (notices : List Notice) : s.Answers request (reply.after notices) := answers

theorem answers_failed {fault : Fault}
    (breaks : fault.isInvalidArgument = false → s.Breaks request fault) :
    s.Answers request (.fail s fault) := by
  change s.Change request s (.error (.ofFault fault))
  rcases Failure.ofFault_cases fault with ⟨cause, same⟩ | ⟨same, valid⟩
  · rw [same]
    exact .refused
  · rw [same]
    exact .broken (breaks valid)

theorem answers_invalid {fault : Fault} (invalid : fault.isInvalidArgument = true) :
    s.Answers request (.fail s fault) :=
  answers_failed fun valid => absurd invalid (by simp [valid])

theorem answers_trying {α : Type} {attempt : Attempt α} {next : α → Reply}
    (fails : ∀ fault, attempt = .error fault → s.Answers request (.fail s fault))
    (later : ∀ value, attempt = .ok value → s.Answers request (next value)) :
    s.Answers request (s.trying attempt next) := by
  unfold trying
  split
  · exact later _ rfl
  · exact fails _ rfl

theorem answers_reading {α : Type} {attempt : Attempt α} {next : α → Reply} {P : α → Prop}
    (reads : attempt.Ends P fun fault => ∃ cause, Failure.ofFault fault = .refused cause)
    (later : ∀ value, attempt = .ok value → s.Answers request (next value)) :
    s.Answers request (s.trying attempt next) := by
  refine answers_trying (fun fault failed => ?_) later
  obtain ⟨cause, same⟩ := reads.fault failed
  change s.Change request s (.error (.ofFault fault))
  rw [same]
  exact .refused

/-! The derivation at hand. -/

@[simp] theorem current_hold (s : Session) (index : Nat) (history : History) :
    (s.hold index history).current = some (index, history) := rfl

@[simp] theorem worksheet_hold (s : Session) (index : Nat) (history : History) :
    (s.hold index history).worksheet = s.worksheet := rfl

theorem current_congr {next : Session} (index : next.index = s.index)
    (lines : next.sequence.map Workable.history = s.sequence.map Workable.history) :
    next.current = s.current := by
  have current_eq (s : Session) : s.current =
      s.index.bind fun index =>
        (s.sequence.map Workable.history).map fun lines => (index, lines) := by
    unfold current
    cases s.index with
    | none => rfl
    | some index => cases s.sequence <;> rfl
  rw [current_eq, current_eq, index, lines]

@[simp] theorem current_renew (s : Session) (worksheet : Worksheet) :
    (s.renew worksheet).current = s.current := by
  refine current_congr rfl ?_
  rw [renew, Option.map_map]
  refine Option.map_congr fun worked _ => ?_
  rw [Function.comp_apply]
  split <;> rfl

@[simp] theorem current_declare (s : Session) (names : List String) :
    (s.declare names).current = s.current :=
  current_renew _ _

@[simp] theorem current_useRules (s : Session) (rules : RuleSet) :
    (s.useRules rules).current = s.current :=
  current_congr rfl (Option.map_map ..)

theorem forall_current_hold {P : Nat → History → Prop} {index : Nat} {history : History}
    (holds : P index history) :
    ∀ other working, (s.hold index history).current = some (other, working) → P other working := by
  intro other working same
  obtain ⟨rfl, rfl⟩ := Prod.mk.inj (Option.some.inj same)
  exact holds

theorem forall_stored_put {P : History → Prop} {index : Nat} {next : History}
    (stored : ∀ history ∈ s.worksheet.sequences, P history) (holds : P next) :
    ∀ history ∈ (s.put index next).worksheet.sequences, P history := by
  intro history member
  rcases List.mem_or_eq_of_mem_set member with old | rfl
  · exact stored history old
  · exact holds

theorem forall_stored_started {P : History → Prop} {source : Option String} {e : Expr}
    (stored : ∀ history ∈ s.worksheet.sequences, P history)
    (holds : P [.byUser (.introduce source) e]) :
    ∀ history ∈ (s.started source e).worksheet.sequences, P history := by
  intro history member
  rcases List.mem_append.mp member with old | new
  · exact stored history old
  · exact List.mem_singleton.mp new ▸ holds

theorem paired_hold (s : Session) (index : Nat) (history : History) :
    (s.hold index history).Paired := by
  refine ⟨iff_of_false (by simp [hold]) (by simp [hold]), fun worked same => ?_⟩
  obtain rfl := Option.some.inj same
  exact ⟨rfl, rfl⟩

theorem Paired.cases (paired : s.Paired) :
    s.index = none ∧ s.sequence = none ∨ ∃ index history, s.hold index history = s := by
  cases atHand : s.sequence with
  | none => exact Or.inl ⟨paired.index.mpr atHand, rfl⟩
  | some worked =>
      obtain ⟨settings, generation, history⟩ := worked
      obtain ⟨sameSettings, sameGeneration⟩ := paired.shared _ atHand
      dsimp only at sameSettings sameGeneration
      subst sameSettings sameGeneration
      cases place : s.index with
      | none => exact absurd (paired.index.mp place) (by simp [atHand])
      | some index =>
          refine Or.inr ⟨index, history, ?_⟩
          rw [hold, ← place, ← atHand]

theorem Paired.hold_eq (paired : s.Paired) {index : Nat} {history : History}
    (atHand : s.current = some (index, history)) : s.hold index history = s := by
  rcases paired.cases with ⟨nowhere, _⟩ | ⟨other, working, same⟩
  · simp [current, nowhere] at atHand
  · rw [← same, current_hold] at atHand
    obtain ⟨rfl, rfl⟩ := Prod.mk.inj (Option.some.inj atHand)
    exact same

theorem Paired.sequence_eq (paired : s.Paired) {index : Nat} {history : History}
    (atHand : s.current = some (index, history)) :
    s.sequence = some ⟨s.worksheet.settings, s.generation, history⟩ :=
  (congrArg Session.sequence (paired.hold_eq atHand)).symm

theorem Paired.sequence_eq_none (paired : s.Paired) (nothing : s.current = none) :
    s.sequence = none := by
  rcases paired.cases with ⟨_, none⟩ | ⟨_, _, same⟩
  · exact none
  · rw [← same, current_hold] at nothing
    exact nomatch nothing

theorem renew_hold (s : Session) (index : Nat) (history : History) (worksheet : Worksheet) :
    (s.hold index history).renew worksheet =
      { s with worksheet := worksheet }.hold index history := by
  simp [renew, hold]

theorem Paired.renew (paired : s.Paired) (worksheet : Worksheet) :
    (s.renew worksheet).Paired := by
  rcases paired.cases with ⟨nowhere, none⟩ | ⟨index, history, same⟩
  · exact ⟨by simp [Session.renew, nowhere, none], by simp [Session.renew, none]⟩
  · rw [← same, renew_hold]
    exact paired_hold _ index history

theorem Paired.renew_eq (paired : s.Paired) {worksheet : Worksheet}
    (same : worksheet.settings = s.worksheet.settings) :
    s.renew worksheet = { s with worksheet := worksheet } := by
  have kept : (s.renew worksheet).sequence = s.sequence := by
    cases atHand : s.sequence with
    | none => simp [Session.renew, atHand]
    | some worked =>
        obtain ⟨settings, generation⟩ := paired.shared worked atHand
        rw [Session.renew, atHand, Option.map_some, if_pos generation, same, ← settings]
  exact congrArg (fun sequence => { s with worksheet := worksheet, sequence := sequence }) kept

theorem Paired.useRules (paired : s.Paired) (rules : RuleSet) : (s.useRules rules).Paired where
  index := by simp [Session.useRules, paired.index]
  shared := by
    intro worked found
    obtain ⟨_, _, rfl⟩ := Option.map_eq_some_iff.mp found
    exact ⟨rfl, rfl⟩

theorem Paired.declare (paired : s.Paired) (names : List String) : (s.declare names).Paired := by
  have declared : Paired { s with parameters := OrderedSet.insertAll s.parameters names } :=
    ⟨paired.index, paired.shared⟩
  exact declared.renew _

theorem Paired.rework_eq (paired : s.Paired) {index : Nat} {history : History}
    (atHand : s.current = some (index, history)) (next : History) :
    s.rework next = s.hold index next := by
  conv_lhs => rw [← paired.hold_eq atHand]
  rfl

theorem answers_withSequence (placed : s.Placed) {next : Workable → Reply}
    (later : ∀ index history, s.current = some (index, history) →
      s.Answers request (next ⟨s.worksheet.settings, s.generation, history⟩)) :
    s.Answers request (s.withSequence next) := by
  unfold withSequence
  cases atHand : s.current with
  | none =>
      rw [placed.paired.sequence_eq_none atHand]
      exact .refused
  | some place =>
      rw [placed.paired.sequence_eq atHand]
      exact later _ _ atHand

theorem answers_tell {actions : List Action} (text : String) (plain : request.introduces = false)
    (tells : ∀ action ∈ actions, s.Tells s request action) :
    s.Answers request (s.tell actions text) := by
  refine answers_trying (fun fault unsaid => ?_) fun _ _ => .answered s.running plain
  obtain ⟨before, action, after, rfl, _, failed⟩ := Attempt.mapM_eq_error_iff.mp unsaid
  exact answers_failed fun _ => .unsaid (tells action (by simp)) failed

theorem settled_eq {index : Nat} {history : History} (atHand : s.current = some (index, history)) :
    s.settled = s.put index history := by
  rw [settled, atHand]

theorem commit_result (placed : s.Placed) : s.commit.result = .ok s.settled := by
  cases atHand : s.current with
  | none =>
      rw [settled, atHand, commit, placed.paired.sequence_eq_none atHand]
      rfl
  | some place =>
      obtain ⟨index, history⟩ := place
      have stored := s.worksheet.store_result index history
      have same := placed.paired.hold_eq atHand
      rw [if_pos (placed.current index history atHand).1] at stored
      rw [settled_eq atHand]
      conv_lhs => rw [← same]
      simp only [commit, hold, bind, Logged.andThen, stored]
      exact congrArg Except.ok (renew_hold s index history _)

@[simp] theorem length_settled (s : Session) :
    s.settled.worksheet.sequences.length = s.worksheet.sequences.length := by
  unfold settled
  split
  · rfl
  · simp [put]

theorem turnTo_result (placed : s.Placed) {index : Nat} {history : History}
    (found : s.settled.worksheet.sequences[index]? = some history) :
    (s.turnTo index).result = .ok (s.settled.hold index history) := by
  have read : s.settled.worksheet.sequence index = .ok history := by
    rw [Worksheet.sequence, Index.get?_natCast, found]
  simp only [turnTo, bind, Logged.andThen, commit_result placed, Logged.ofAttempt, read]
  rfl

theorem Placed.hold (placed : s.Placed) {index : Nat} {history : History}
    (inside : index < s.worksheet.sequences.length) (nonempty : history ≠ []) :
    (s.hold index history).Placed where
  paired := paired_hold s index history
  stored := placed.stored
  current := forall_current_hold ⟨inside, nonempty⟩

theorem Placed.turn (placed : s.Placed) {index : Nat} {history : History}
    (found : s.worksheet.sequences[index]? = some history) : (s.hold index history).Placed :=
  placed.hold (List.getElem?_eq_some_iff.mp found).1
    (placed.stored history (List.mem_of_getElem? found))

theorem Placed.put (placed : s.Placed) {index : Nat} {history next : History}
    (atHand : s.current = some (index, history)) (nonempty : next ≠ []) :
    (s.put index next).Placed where
  paired := paired_hold _ index next
  stored := forall_stored_put placed.stored nonempty
  current := by
    have inside := (placed.current index history atHand).1
    exact forall_current_hold ⟨by simpa [Session.put] using inside, nonempty⟩

theorem Placed.settled (placed : s.Placed) : s.settled.Placed := by
  unfold Session.settled
  split
  · exact placed
  · rename_i index history atHand
    exact placed.put atHand (placed.current index history atHand).2

theorem enter_eq (placed : s.Placed) {index : Nat} {history : History}
    (found : s.settled.worksheet.sequences[index]? = some history) :
    ∃ said, (s.enter index).session = s.settled.hold index history ∧
      (s.enter index).result = .ok said := by
  have nonempty := placed.settled.stored history (List.mem_of_getElem? found)
  obtain ⟨last, final⟩ := Option.ne_none_iff_exists'.mp (mt List.getLast?_eq_none_iff.mp nonempty)
  unfold enter Reply.andThen
  rw [turnTo_result placed found]
  simp only [hold, Option.bind_some, History.last?, final, Option.map_some]
  exact ⟨_, rfl, rfl⟩

/-- The derivation at hand is stored; its last line is told if its action has a text. -/
theorem reportLast_cases (placed : s.Placed) {index : Nat} {history : History}
    (atHand : s.current = some (index, history)) :
    s.reportLast.session = s.put index history ∧
      ((∃ said, s.reportLast.result = .ok said) ∨
        ∃ line fault, history.getLast? = some line ∧ line.action.said = .error fault ∧
          s.reportLast.result = .error (.broken fault)) := by
  obtain ⟨last, final⟩ := Option.ne_none_iff_exists'.mp
    (mt List.getLast?_eq_none_iff.mp (placed.current index history atHand).2)
  unfold reportLast Reply.andThen
  rw [commit_result placed, settled_eq atHand]
  simp only [put, hold, final, tell, trying]
  cases said : last.action.said with
  | ok text =>
      rw [List.mapM_cons, said]
      exact ⟨rfl, Or.inl ⟨_, rfl⟩⟩
  | error fault =>
      rw [List.mapM_cons, said]
      exact ⟨rfl, Or.inr ⟨last, fault, rfl, said,
        congrArg Except.error (Failure.ofFault_of_unsaid said)⟩⟩

theorem started_placed (placed : s.Placed) (source : Option String) (e : Expr) :
    (s.started source e).Placed := by
  refine ⟨⟨placed.paired.index, placed.paired.shared⟩,
    forall_stored_started placed.stored (List.cons_ne_nil _ _), ?_⟩
  intro index history atHand
  obtain ⟨inside, nonempty⟩ := placed.current index history atHand
  refine ⟨?_, nonempty⟩
  change index < (s.worksheet.sequences ++ [_]).length
  rw [List.length_append]
  omega

theorem newest_of_started (placed : s.Placed) (source : Option String) (e : Expr) :
    (s.started source e).settled.worksheet.sequences[s.worksheet.sequences.length]? =
      some [.byUser (.introduce source) e] := by
  have current := placed.current
  unfold settled
  split
  · exact List.getElem?_concat_length
  · rename_i index history same
    have inside := (current index history same).1
    change ((s.worksheet.sequences ++ [_]).set index history)[_]? = _
    rw [List.getElem?_set_ne (by omega)]
    exact List.getElem?_concat_length

/-! Commands on the worksheet. -/

theorem begin_eq (placed : s.Placed) (source : Option String) (e : Expr) :
    ∃ said, (s.begin (s.worksheet.start (.introduce source) e)).session = s.opened source e ∧
      (s.begin (s.worksheet.start (.introduce source) e)).result = .ok said := by
  have same : s.renew (s.worksheet.start (.introduce source) e) = s.started source e :=
    placed.paired.renew_eq rfl
  rw [begin, same]
  exact enter_eq (started_placed placed source e) (newest_of_started placed source e)

theorem answers_begin (placed : s.Placed) (asked : request.introduces = true)
    {source : Option String} {e : Expr} (starts : s.Starts source e) :
    s.Answers request (s.begin (s.worksheet.start (.introduce source) e)) := by
  obtain ⟨said, session, result⟩ := begin_eq placed source e
  unfold Answers
  rw [session, result]
  exact .opened asked starts

theorem answers_introduce (placed : s.Placed) (written : String) :
    s.Answers (.worksheet (.introduce written)) (s.introduce written) := by
  refine answers_reading ((Parse.infixed_operand _ written).imp_fault
    fun _ unread => Failure.ofFault_of_unread (Or.inl unread)) fun e parsed => ?_
  exact answers_begin placed rfl (.written parsed)

theorem answers_introduceLabelled (placed : s.Placed) (label : String) :
    s.Answers (.worksheet (.introduceLabelled label)) (s.introduceLabelled label) := by
  unfold introduceLabelled
  split
  · rename_i worksheet read
    obtain ⟨e, known, started⟩ := Attempt.bind_eq_ok.mp read
    obtain rfl := Except.ok.inj started
    exact answers_begin placed rfl (.labelled known)
  · exact .refused

theorem answers_switchTo (placed : s.Placed) (number : String) :
    s.Answers (.worksheet (.switchTo number)) (s.switchTo number) := by
  refine answers_reading ((readNumber_ends number).imp (fun _ _ _ => trivial)
    fun _ invalid => Failure.ofFault_of_invalid invalid) fun index _ => ?_
  split
  · rename_i inside
    have found : ∃ history, s.settled.worksheet.sequences[index.toNat]? = some history := by
      have bound : index.toNat < s.settled.worksheet.sequences.length := by
        rw [length_settled]
        omega
      exact ⟨_, List.getElem?_eq_getElem bound⟩
    obtain ⟨history, found⟩ := found
    obtain ⟨said, session, result⟩ := enter_eq placed found
    unfold Answers
    rw [session, result]
    exact .turned rfl found
  · exact .refused

theorem answers_suggest (placed : s.Placed) (addresses : List String) :
    s.Answers (.worksheet (.suggest addresses)) (s.suggest addresses) := by
  refine answers_withSequence placed fun index history atHand => ?_
  refine answers_reading ((readSelection_ends addresses).imp (fun _ _ _ => trivial)
    fun _ invalid => Failure.ofFault_of_invalid invalid) fun selection read => ?_
  refine answers_trying (fun fault failed => ?_) fun available listed => ?_
  · exact answers_failed (.suggestions (Or.inl rfl) atHand read failed)
  · refine answers_tell _ rfl fun action member => ?_
    obtain ⟨⟨_, e⟩, offered, rfl⟩ := List.mem_map.mp member
    exact .offered atHand read listed offered

theorem rework_placed (placed : s.Placed) {index : Nat} {history next : History}
    (atHand : s.current = some (index, history))
    (reworks : s.worksheet.settings.Reworks history next) : (s.hold index next).Placed := by
  obtain ⟨inside, nonempty⟩ := placed.current index history atHand
  exact placed.hold inside (reworks.ne_nil nonempty)

theorem answers_saved (placed : s.Placed) (tells : request.tellsLast = true) {index : Nat}
    {history next : History} (atHand : s.current = some (index, history))
    (reworks : s.worksheet.settings.Reworks history next) :
    s.Answers request (s.hold index next).reportLast := by
  obtain ⟨session, ends⟩ := reportLast_cases (rework_placed placed atHand reworks) rfl
  unfold Answers
  rw [session]
  rcases ends with ⟨said, result⟩ | ⟨line, fault, last, unsaid, result⟩
  · rw [result]
    exact .saved (Request.introduces_of_tellsLast tells) atHand reworks
  · rw [result]
    exact .unsaid tells atHand reworks last unsaid

theorem answers_afterRun (placed : s.Placed) (tells : request.tellsLast = true) {index : Nat}
    {history : History} (atHand : s.current = some (index, history)) {run : Run Bool}
    (refusal : Refusal)
    (known : run.history = history ∧ (run.result = .ok false ∨
        ∃ fault, run.result = .error fault ∧ s.Answers request (.fail s fault)) ∨
      ∃ action e, s.worksheet.settings.Offers history action e ∧
        run = Settings.answering (s.worksheet.settings.push history action e) true) :
    s.Answers request (s.afterRun run refusal) := by
  have same := placed.paired.hold_eq atHand
  unfold afterRun
  rw [placed.paired.rework_eq atHand]
  refine Answers.after ?_ _
  rcases known with ⟨kept, refused | ⟨fault, failed, answers⟩⟩ | ⟨action, e, offers, rfl⟩
  · rw [refused, kept, same]
    exact .refused
  · rw [failed, kept, same]
    exact answers
  · cases result : (s.worksheet.settings.push history action e).result with
    | ok _ =>
        simp only [Settings.answering, result, Except.map]
        exact answers_saved placed tells atHand (.push offers result)
    | error fault =>
        obtain ⟨cause, same⟩ := Failure.ofFault_of_invalid (Settings.push_fault result)
        simp only [Settings.answering, result, Except.map]
        unfold Answers Reply.fail
        rw [same]
        exact .interrupted (Request.introduces_of_tellsLast tells) atHand offers result

theorem answers_take (placed : s.Placed) (number : String) (addresses : List String) :
    s.Answers (.worksheet (.take number addresses)) (s.take number addresses) := by
  refine answers_withSequence placed fun index history atHand => ?_
  refine answers_reading ((readSelection_ends addresses).imp (fun _ _ _ => trivial)
    fun _ invalid => Failure.ofFault_of_invalid invalid) fun selection read => ?_
  refine answers_reading ((readNumber_ends number).imp (fun _ _ _ => trivial)
    fun _ invalid => Failure.ofFault_of_invalid invalid) fun choice _ => ?_
  refine answers_afterRun placed rfl atHand _ ?_
  unfold Settings.takeSuggestion
  split
  · rename_i fault failed
    refine Or.inl ⟨rfl, Or.inr ⟨fault, rfl, ?_⟩⟩
    exact answers_failed (.suggestions (Or.inr ⟨number, rfl⟩) atHand read failed)
  · rename_i available listed
    split
    · rename_i action e chosen
      exact Or.inr ⟨action, e, .suggestion listed (Index.mem_of_forward? chosen), rfl⟩
    · exact Or.inl ⟨rfl, Or.inl rfl⟩

theorem answers_applyRule (placed : s.Placed) (id address : String) :
    s.Answers (.worksheet (.applyRule id address)) (s.applyRule id address) := by
  refine answers_withSequence placed fun index history atHand => ?_
  refine answers_reading ((readAddress_ends address).imp (fun _ _ _ => trivial)
    fun _ invalid => Failure.ofFault_of_invalid invalid) fun place _ => ?_
  refine answers_afterRun placed rfl atHand _ ?_
  unfold Settings.applyRule
  split
  · exact Or.inl ⟨rfl, Or.inl rfl⟩
  · rename_i unknown
    have absent : history.getLast? = none := by simpa [History.last?] using unknown
    exact absurd (List.getLast?_eq_none_iff.mp absent) (placed.current index history atHand).2
  · rename_i rule last known newest
    unfold Settings.tryPush
    split
    · rename_i e applied
      exact Or.inr ⟨_, e, .rule known newest applied, rfl⟩
    · exact Or.inl ⟨rfl, Or.inl rfl⟩
    · rename_i fault other failed
      refine Or.inl ⟨rfl, Or.inr ⟨fault, rfl, answers_invalid ?_⟩⟩
      refine ((rule.applyAt_recovers last place).fault failed).resolve_left ?_
      rintro ⟨cause, rfl⟩
      exact other cause rfl

theorem answers_label (placed : s.Placed) (name : String) (number : Option String) :
    s.Answers (.worksheet (.label name number)) (s.label name number) := by
  refine answers_withSequence placed fun index history atHand => ?_
  have reads : (lineNumber history number).Ends (fun _ => True)
      fun fault => ∃ cause, Failure.ofFault fault = .refused cause := by
    unfold lineNumber
    split
    · exact (readNumber_ends _).imp (fun _ _ _ => trivial)
        fun _ invalid => Failure.ofFault_of_invalid invalid
    · trivial
  refine answers_reading reads fun line _ => ?_
  split
  · rename_i inside
    obtain ⟨labelled, named⟩ := history.exists_withLabel (some name) inside.1 inside.2
    rw [named]
    have stores := commit_result (rework_placed placed atHand (.label named))
    simp only [trying, placed.paired.rework_eq atHand]
    unfold Reply.andThen
    rw [stores]
    exact .saved rfl atHand (.label named)
  · exact .refused

theorem answers_reset (placed : s.Placed) (number : String) :
    s.Answers (.worksheet (.reset number)) (s.reset number) := by
  refine answers_withSequence placed fun index history atHand => ?_
  refine answers_reading ((readNumber_ends number).imp (fun _ _ _ => trivial)
    fun _ invalid => Failure.ofFault_of_invalid invalid) fun line _ => ?_
  split
  · rename_i kept dropped
    rw [placed.paired.rework_eq atHand]
    exact answers_saved placed rfl atHand (.reset dropped)
  · exact .refused

theorem answers_work (placed : s.Placed) (command : WorksheetCommand) :
    s.Answers (.worksheet command) (s.work command) := by
  cases command with
  | introduce written => exact answers_introduce placed written
  | introduceLabelled label => exact answers_introduceLabelled placed label
  | switchTo number => exact answers_switchTo placed number
  | list =>
      refine answers_withSequence placed fun index history atHand => ?_
      exact answers_tell _ rfl fun action member => .listed atHand member
  | suggest addresses => exact answers_suggest placed addresses
  | take number addresses => exact answers_take placed number addresses
  | applyRule id address => exact answers_applyRule placed id address
  | label name number => exact answers_label placed name number
  | reset number => exact answers_reset placed number
  | misused form => exact .refused
  | unknown name => exact .refused

theorem answers_control (files : Files) (command : SessionCommand) :
    s.Answers (.session command) (s.control files command) := by
  cases command with
  | declare names => exact .declared names rfl
  | quit => exact .answered false rfl
  | load path =>
      unfold control
      dsimp only
      split
      · exact .answered s.running rfl
      · unfold load
        refine Answers.after ?_ _
        split
        · rename_i rules loaded
          split
          · exact .loaded rfl loaded
          · exact .misfit rfl loaded
        · exact .answered s.running rfl
        · exact .broken .load
  | _ => exact .answered s.running rfl

theorem control_ne_refused {files : Files} (command : SessionCommand) (cause : Refusal) :
    (s.control files command).result ≠ .error (.refused cause) := by
  cases command with
  | load path =>
      unfold control
      dsimp only
      split
      · exact nofun
      · unfold load Reply.after
        dsimp only
        split
        · split
          all_goals exact nofun
        all_goals exact nofun
  | _ => exact nofun

theorem answers_perform (placed : s.Placed) (files : Files) (request : Request) :
    s.Answers request (s.perform files request) := by
  cases request with
  | nothing => exact .answered s.running rfl
  | session command => exact answers_control files command
  | worksheet command => exact answers_work placed command

/-! What stays true. -/

theorem Placed.change {next : Session} {result : Except Failure (Option String)}
    (placed : s.Placed) (change : s.Change request next result) : next.Placed := by
  cases change with
  | answered => exact ⟨⟨placed.paired.index, placed.paired.shared⟩, placed.stored, placed.current⟩
  | declared names =>
      exact ⟨placed.paired.declare names, placed.stored, current_declare s names ▸ placed.current⟩
  | loaded =>
      exact ⟨placed.paired.useRules _, placed.stored, (current_useRules s _).symm ▸ placed.current⟩
  | misfit => exact ⟨⟨placed.paired.index, placed.paired.shared⟩, placed.stored, placed.current⟩
  | @opened source e =>
      exact (started_placed placed source e).settled.turn (newest_of_started placed source e)
  | turned _ found => exact placed.settled.turn found
  | saved _ atHand reworks | unsaid _ atHand reworks =>
      exact placed.put atHand (reworks.ne_nil (placed.current _ _ atHand).2)
  | refused => exact placed
  | broken _ => exact placed
  | @interrupted index history action e _ _ _ atHand =>
      exact placed.hold (placed.current index history atHand).1
        (s.worksheet.settings.push_ne_nil history action e)

end

end Session

end Stepwise
