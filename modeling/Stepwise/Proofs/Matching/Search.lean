import Stepwise.Deduction
import Stepwise.Proofs.Address.Comparison
import Stepwise.Proofs.Expr.Selection

/-!
The search for a pattern lists exactly the addresses at which the pattern matches, each with its
bindings and in strictly increasing order. Membership comes first: what is found below an address
extends it, and the order of the list follows from where its members lie.
-/

namespace Stepwise.Expr

theorem matchHere_eq_ok_iff {subject pattern : Expr} {bindings : Bindings} :
    subject.matchHere pattern = .ok bindings ↔ subject.bindings? pattern = some bindings := by
  unfold matchHere
  split
  · rename_i known found
    rw [found, Option.some.injEq, Except.ok.injEq]
  · rename_i absent
    simp [absent, Attempt.stepFault_ne_ok]

theorem matchAt_eq_ok_iff {e pattern : Expr} {address : Address} {bindings : Bindings} :
    e.matchAt pattern address = .ok bindings ↔
      ∃ target, e.resolve address = .ok target ∧ target.bindings? pattern = some bindings := by
  rw [matchAt, Attempt.bind_eq_ok]
  simp only [matchHere_eq_ok_iff]

theorem mem_found {pattern candidate : Expr} {address other : Address} {bindings : Bindings} :
    (other, bindings) ∈ found pattern candidate address ↔
      other = address ∧ candidate.bindings? pattern = some bindings := by
  unfold found
  split
  · rename_i known matched
    rw [matched, List.mem_singleton, Prod.mk.injEq, Option.some.injEq, eq_comm (a := bindings)]
  · rename_i absent
    simp [absent]

def MatchesBelow (pattern : Expr) (base : List Int) (e : Expr) (address : Address)
    (bindings : Bindings) : Prop :=
  ∃ path pair, address = ⟨base ++ path, pair⟩ ∧ e.matchAt pattern ⟨path, pair⟩ = .ok bindings

section

variable (pattern : Expr) (base : List Int)

theorem mem_pairMatches (symbol : String) (terms : List Expr) (start : Nat) (address : Address)
    (bindings : Bindings) :
    (address, bindings) ∈ pairMatches pattern symbol (.ofPath base) start terms ↔
      ∃ (place : Nat) (left right : Expr), terms[place]? = some left ∧
        terms[place + 1]? = some right ∧ address = ⟨base, some ((start + place : Nat) : Int)⟩ ∧
        (binary symbol left right).bindings? pattern = some bindings := by
  induction terms generalizing start with
  | nil => simp [pairMatches]
  | cons first rest ih =>
      cases rest with
      | nil => simp [pairMatches]
      | cons second rest =>
          rw [pairMatches, List.mem_append, mem_found, ih]
          constructor
          · rintro (⟨rfl, matched⟩ | ⟨place, left, right, first, second, rfl, matched⟩)
            · exact ⟨0, _, _, rfl, rfl, rfl, matched⟩
            · refine ⟨place + 1, left, right, first, second, ?_, matched⟩
              rw [Nat.add_right_comm, Nat.add_assoc]
          · rintro ⟨place, left, right, first, second, rfl, matched⟩
            cases place with
            | zero =>
                obtain rfl := Option.some.inj first
                obtain rfl := Option.some.inj second
                exact Or.inl ⟨rfl, matched⟩
            | succ place =>
                refine Or.inr ⟨place, left, right, first, second, ?_, matched⟩
                rw [Nat.add_right_comm, Nat.add_assoc]

theorem mem_trainPairs (kind : Kind) (symbol : String) (children : List Expr) (address : Address)
    (bindings : Bindings) :
    (address, bindings) ∈ (if kind = .train then
        pairMatches pattern symbol (.ofPath base) 0 children else []) ↔
      kind = .train ∧ ∃ (place : Nat) (left right : Expr), children[place]? = some left ∧
        children[place + 1]? = some right ∧ address = ⟨base, some (place : Int)⟩ ∧
        (binary symbol left right).bindings? pattern = some bindings := by
  split
  · rename_i isTrain
    simp only [mem_pairMatches, Nat.zero_add, isTrain, true_and]
  · rename_i other
    simp [other]

theorem mem_matchesEach (children : List Expr)
    (each : ∀ child ∈ children, ∀ base address bindings,
      (address, bindings) ∈ matchesFrom pattern (.ofPath base) child ↔
        MatchesBelow pattern base child address bindings)
    (start : Nat) (address : Address) (bindings : Bindings) :
    (address, bindings) ∈ matchesEach pattern (.ofPath base) start children ↔
      ∃ (place : Nat) (child : Expr), children[place]? = some child ∧
        MatchesBelow pattern (base ++ [((start + place : Nat) : Int)]) child address bindings := by
  induction children generalizing start with
  | nil => simp [matchesEach]
  | cons first rest ih =>
      have here := each first (by simp) (base ++ [(start : Int)]) address bindings
      have later := ih (fun child member => each child (by simp [member])) (start + 1)
      rw [matchesEach, List.mem_append, later]
      constructor
      · rintro (inFirst | ⟨place, child, known, below⟩)
        · exact ⟨0, first, rfl, here.mp inFirst⟩
        · refine ⟨place + 1, child, known, ?_⟩
          rwa [Nat.add_right_comm, Nat.add_assoc] at below
      · rintro ⟨place, child, known, below⟩
        cases place with
        | zero =>
            obtain rfl := Option.some.inj known
            exact Or.inl (here.mpr below)
        | succ place =>
            refine Or.inr ⟨place, child, known, ?_⟩
            rwa [Nat.add_right_comm, Nat.add_assoc]

theorem matchesBelow_node {kind : Kind} {symbol : String} {children : List Expr}
    (shaped : (node kind symbol children).WellShaped) (address : Address) (bindings : Bindings) :
    MatchesBelow pattern base (node kind symbol children) address bindings ↔
      (address = ⟨base, none⟩ ∧ (node kind symbol children).bindings? pattern = some bindings) ∨
      (kind = .train ∧ ∃ (place : Nat) (left right : Expr), children[place]? = some left ∧
        children[place + 1]? = some right ∧ address = ⟨base, some (place : Int)⟩ ∧
        (binary symbol left right).bindings? pattern = some bindings) ∨
      ∃ (place : Nat) (child : Expr), children[place]? = some child ∧
        MatchesBelow pattern (base ++ [(place : Int)]) child address bindings := by
  constructor
  · rintro ⟨path, pair, rfl, matched⟩
    obtain ⟨target, resolved, found⟩ := matchAt_eq_ok_iff.mp matched
    cases path with
    | nil =>
        rw [List.append_nil]
        cases pair with
        | none =>
            obtain rfl := Except.ok.inj resolved
            exact Or.inl ⟨rfl, found⟩
        | some index =>
            obtain ⟨isTrain, place, left, right, rfl, first, second, rfl⟩ :=
              (pairAt_eq_ok_iff shaped).mp resolved
            exact Or.inr (Or.inl ⟨isTrain, place, left, right, first, second, rfl, found⟩)
    | cons index path =>
        obtain ⟨child, known, below⟩ := resolve_cons.mp resolved
        obtain ⟨place, rfl, member⟩ := childAt?_eq_some_iff.mp known
        refine Or.inr (Or.inr ⟨place, child, member, path, pair, ?_,
          matchAt_eq_ok_iff.mpr ⟨target, below, found⟩⟩)
        rw [List.append_assoc, List.singleton_append]
  · rintro (⟨rfl, found⟩ | ⟨isTrain, place, left, right, first, second, rfl, found⟩ |
      ⟨place, child, member, path, pair, rfl, matched⟩)
    · refine ⟨[], none, by rw [List.append_nil], matchAt_eq_ok_iff.mpr ⟨_, rfl, found⟩⟩
    · refine ⟨[], some (place : Int), by rw [List.append_nil],
        matchAt_eq_ok_iff.mpr ⟨_, (pairAt_eq_ok_iff shaped).mpr ?_, found⟩⟩
      exact ⟨isTrain, place, left, right, rfl, first, second, rfl⟩
    · obtain ⟨target, below, found⟩ := matchAt_eq_ok_iff.mp matched
      refine ⟨place :: path, pair, by rw [List.append_assoc, List.singleton_append],
        matchAt_eq_ok_iff.mpr ⟨target, resolve_cons.mpr ⟨child, ?_, below⟩, found⟩⟩
      exact childAt?_eq_some_iff.mpr ⟨place, rfl, member⟩

theorem mem_matchesFrom {e : Expr} (shaped : e.WellShaped) (address : Address)
    (bindings : Bindings) :
    (address, bindings) ∈ matchesFrom pattern (.ofPath base) e ↔
      MatchesBelow pattern base e address bindings := by
  induction e using Expr.induction generalizing base address bindings with
  | node kind symbol children each =>
      have inside := mem_matchesEach pattern base children
        (fun child member base => each child member base (shaped.child member)) 0 address bindings
      rw [matchesFrom, List.mem_append, List.mem_append, mem_found, mem_trainPairs, inside,
        matchesBelow_node pattern base shaped, or_assoc]
      simp only [Nat.zero_add]
      rfl

def InOrder (entries : List (Address × Bindings)) : Prop :=
  entries.Pairwise fun first second => first.1.before second.1 = true

theorem found_inOrder (candidate : Expr) (address : Address) :
    InOrder (found pattern candidate address) := by
  unfold found
  split
  · exact List.pairwise_singleton _ _
  · exact List.Pairwise.nil

theorem pairMatches_inOrder (symbol : String) (terms : List Expr) (start : Nat) :
    InOrder (pairMatches pattern symbol (.ofPath base) start terms) := by
  induction terms generalizing start with
  | nil => exact List.Pairwise.nil
  | cons first rest ih =>
      cases rest with
      | nil => exact List.Pairwise.nil
      | cons second rest =>
          rw [pairMatches]
          refine List.pairwise_append.mpr ⟨found_inOrder _ _ _, ih _, ?_⟩
          rintro ⟨address, bindings⟩ here ⟨other, others⟩ later
          obtain ⟨rfl, _⟩ := mem_found.mp here
          obtain ⟨place, _, _, _, _, rfl, _⟩ := (mem_pairMatches pattern base _ _ _ _ _).mp later
          exact Address.before_later_pair base (by omega)

theorem matchesEach_inOrder {children : List Expr}
    (shaped : ∀ child ∈ children, child.WellShaped)
    (each : ∀ child ∈ children, ∀ base, InOrder (matchesFrom pattern (.ofPath base) child))
    (start : Nat) : InOrder (matchesEach pattern (.ofPath base) start children) := by
  induction children generalizing start with
  | nil => exact List.Pairwise.nil
  | cons first rest ih =>
      have restShaped : ∀ child ∈ rest, child.WellShaped :=
        fun child member => shaped child (by simp [member])
      rw [matchesEach]
      refine List.pairwise_append.mpr ⟨each first (by simp) (base ++ [(start : Int)]),
        ih restShaped (fun child member => each child (by simp [member])) _, ?_⟩
      rintro ⟨address, bindings⟩ here ⟨other, others⟩ later
      obtain ⟨path, pair, rfl, _⟩ :=
        (mem_matchesFrom pattern (base ++ [(start : Int)]) (shaped first (by simp)) _ _).mp here
      obtain ⟨place, child, _, path', pair', rfl, _⟩ := (mem_matchesEach pattern base rest
        (fun child member base => mem_matchesFrom pattern base (restShaped child member))
        (start + 1) _ _).mp later
      simp only [List.append_assoc, List.singleton_append]
      exact Address.before_sibling base (by omega) _ _ _ _

theorem matchesFrom_inOrder {e : Expr} (shaped : e.WellShaped) :
    InOrder (matchesFrom pattern (.ofPath base) e) := by
  induction e using Expr.induction generalizing base with
  | node kind symbol children each =>
      have inside := mem_matchesEach pattern base children
        (fun child member base => mem_matchesFrom pattern base (shaped.child member)) 0
      rw [matchesFrom]
      refine List.pairwise_append.mpr ⟨List.pairwise_append.mpr
        ⟨found_inOrder _ _ _, ?_, ?_⟩, ?_, ?_⟩
      · split
        · exact pairMatches_inOrder pattern base symbol children 0
        · exact List.Pairwise.nil
      · rintro ⟨address, bindings⟩ here ⟨other, others⟩ later
        obtain ⟨rfl, _⟩ := mem_found.mp here
        obtain ⟨_, place, _, _, _, _, rfl, _⟩ := (mem_trainPairs pattern base _ _ _ _ _).mp later
        exact Address.before_pair base place
      · exact matchesEach_inOrder pattern base (fun child member => shaped.child member)
          (fun child member base => each child member base (shaped.child member)) 0
      · rintro ⟨address, bindings⟩ here ⟨other, others⟩ later
        obtain ⟨place, child, _, path, pair, rfl, _⟩ := (inside _ _).mp later
        rw [List.append_assoc, List.singleton_append]
        rcases List.mem_append.mp here with itself | ofPair
        · obtain ⟨rfl, _⟩ := mem_found.mp itself
          exact Address.before_below base _ _ _ _
        · obtain ⟨_, _, _, _, _, _, rfl, _⟩ := (mem_trainPairs pattern base _ _ _ _ _).mp ofPair
          exact Address.before_below base _ _ _ _

end

theorem InOrder.addresses {entries : List (Address × Bindings)} (inOrder : InOrder entries) :
    (entries.map Prod.fst).Pairwise fun first second => first.before second = true :=
  List.pairwise_map.mpr inOrder

theorem nodup_of_before {addresses : List Address}
    (inOrder : addresses.Pairwise fun first second => first.before second = true) :
    addresses.Nodup := by
  refine inOrder.imp ?_
  rintro first _ less rfl
  simp [Address.not_before_self] at less

theorem mem_patternMatches {e : Expr} (shaped : e.WellShaped) (pattern : Expr) (address : Address)
    (bindings : Bindings) :
    (address, bindings) ∈ e.patternMatches pattern ↔ e.matchAt pattern address = .ok bindings := by
  refine (mem_matchesFrom pattern [] shaped address bindings).trans ?_
  constructor
  · rintro ⟨path, pair, rfl, matched⟩
    exact matched
  · intro matched
    exact ⟨address.path, address.pair, rfl, matched⟩

theorem patternMatches_inOrder {e : Expr} (shaped : e.WellShaped) (pattern : Expr) :
    InOrder (e.patternMatches pattern) :=
  matchesFrom_inOrder pattern [] shaped

/-- The search for a pattern lists, in strictly increasing order and each only once, exactly the
addresses that resolve to something the pattern matches, with the bindings of that match. The
addresses for an equation are those for its left side. -/
theorem patternMatches_exact (e pattern : Expr) (shaped : e.WellShaped) :
    ((e.patternMatches pattern).map Prod.fst).Pairwise
        (fun first second => first.before second = true) ∧
    ((e.patternMatches pattern).map Prod.fst).Nodup ∧
    (∀ address bindings, (address, bindings) ∈ e.patternMatches pattern ↔
      ∃ target, e.resolve address = .ok target ∧ target.bindings? pattern = some bindings) ∧
    (∀ address bindings, (address, bindings) ∈ e.patternMatches pattern ↔
      e.matchAt pattern address = .ok bindings) ∧
    ∀ rhs, ∃ addresses, e.addressesFor (equation pattern rhs) = .ok addresses ∧
      addresses.Pairwise (fun first second => first.before second = true) ∧
      ∀ address, address ∈ addresses ↔ ∃ bindings, e.matchAt pattern address = .ok bindings := by
  have inOrder := (patternMatches_inOrder shaped pattern).addresses
  have members := mem_patternMatches shaped pattern
  refine ⟨inOrder, nodup_of_before inOrder, ?_, members, ?_⟩
  · intro address bindings
    rw [members, matchAt_eq_ok_iff]
  · intro rhs
    refine ⟨_, rfl, inOrder, ?_⟩
    intro address
    simp [members]

def nestedSum : Expr :=
  train "+" [var "a", var "b", unary "-" (binary "+" (var "c") (var "c"))]

/-- A sum is found at the last pair of a train and below its last term, but not past its end. -/
theorem patternMatches_exact_nestedSum :
    nestedSum.WellShaped ∧ ∃ addresses,
      nestedSum.addressesFor (equation (binary "+" (var "X") (var "Y")) (var "X")) = .ok addresses ∧
      ⟨[], some 1⟩ ∈ addresses ∧ ⟨[2, 0], none⟩ ∈ addresses ∧ ⟨[], some 2⟩ ∉ addresses := by
  have shaped : nestedSum.WellShaped := by decide
  have found := (patternMatches_exact nestedSum (binary "+" (var "X") (var "Y")) shaped).2.2.2.2
  obtain ⟨addresses, listed, _, members⟩ := found (var "X")
  refine ⟨shaped, addresses, listed, ?_, ?_, ?_⟩
  · refine (members _).mpr ⟨[("X", var "b"), ("Y", unary "-" (binary "+" (var "c") (var "c")))], ?_⟩
    exact matchAt_eq_ok_iff.mpr ⟨_, rfl, by decide⟩
  · refine (members _).mpr ⟨[("X", var "c"), ("Y", var "c")], ?_⟩
    exact matchAt_eq_ok_iff.mpr ⟨_, rfl, by decide⟩
  · intro member
    obtain ⟨bindings, matched⟩ := (members _).mp member
    obtain ⟨target, resolved, _⟩ := matchAt_eq_ok_iff.mp matched
    exact absurd resolved (Attempt.stepFault_ne_ok _ _)

end Stepwise.Expr
