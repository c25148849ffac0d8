import Stepwise.Parse.Basic
import Stepwise.Proofs.Expr.Places

/-!
The node that a symbol makes of its operands. Its kind is found first, from the number of the
operands and from whether one of them is a marker; then the node is built, if it can be.
-/

namespace Stepwise

def Fault.IsParse (fault : Fault) : Prop := ∃ cause, fault = .parse cause

def Fault.IsUnread (fault : Fault) : Prop := fault.IsParse ∨ ∃ cause, fault = .shape cause

namespace Parse

open Stepwise.Expr

theorem isUnread_parse (cause : ParseFault) : (Fault.parse cause).IsUnread := Or.inl ⟨cause, rfl⟩

def applicationKind (ctx : Context) (symbol : String) (count : Nat) (marked : Bool) :
    Attempt Kind :=
  if symbol = ellipsis then
    if count = 1 then .ok .variadic else .error (.parse .markerArity)
  else if marked then
    if count = 1 then
      if symbol ∈ ctx.assocOps then .ok .train else .error (.parse (.markerUnder symbol))
    else .error (.parse (.markerNotAlone symbol))
  else .ok (operatorKind ctx symbol count)

section

variable {ctx : Context} {symbol : String} {operands : List Expr}

theorem application_eq_bind (ctx : Context) (symbol : String) (operands : List Expr) :
    application ctx symbol operands =
      applicationKind ctx symbol operands.length (operands.any isMarker) >>= fun kind =>
        build kind symbol operands := by
  unfold application applicationKind
  split
  · split
    all_goals rfl
  · split
    · split
      · split
        all_goals rfl
      · rfl
    · rfl

theorem application_eq_ok_iff {e : Expr} : application ctx symbol operands = .ok e ↔
    ∃ kind, applicationKind ctx symbol operands.length (operands.any isMarker) = .ok kind ∧
      build kind symbol operands = .ok e := by
  rw [application_eq_bind, Attempt.bind_eq_ok]

theorem applicationKind_cases {count : Nat} {marked : Bool} {kind : Kind}
    (found : applicationKind ctx symbol count marked = .ok kind) :
    (symbol = ellipsis ∧ kind = .variadic) ∨
      (symbol ≠ ellipsis ∧ marked = true ∧ count = 1 ∧ kind = .train) ∨
      (symbol ≠ ellipsis ∧ marked = false ∧ kind = operatorKind ctx symbol count) := by
  unfold applicationKind at found
  split at found
  · rename_i mark
    split at found
    · exact Or.inl ⟨mark, (Except.ok.inj found).symm⟩
    · simp at found
  · rename_i ordinary
    split at found
    · rename_i isMarked
      split at found
      · rename_i one
        split at found
        · exact Or.inr (Or.inl ⟨ordinary, isMarked, one, (Except.ok.inj found).symm⟩)
        · simp at found
      · simp at found
    · rename_i unmarked
      exact Or.inr (Or.inr ⟨ordinary, by simpa using unmarked, (Except.ok.inj found).symm⟩)

theorem operatorKind_cases (ctx : Context) (symbol : String) (count : Nat) :
    (operatorKind ctx symbol count = .unary ∧ count = 1) ∨
      ((operatorKind ctx symbol count = .statement ∨ operatorKind ctx symbol count = .binary) ∧
        count = 2) ∨
      (operatorKind ctx symbol count = .train ∧ 2 ≤ count ∧
        (count = 2 → symbol ∉ statementSymbols ∧ symbol ∉ ctx.binaryOps)) ∨
      operatorKind ctx symbol count = .call := by
  unfold operatorKind
  split
  · rename_i one
    exact Or.inl ⟨rfl, one.1⟩
  · split
    · rename_i two
      exact Or.inr (Or.inl ⟨Or.inl rfl, two.1⟩)
    · rename_i noStatement
      split
      · rename_i two
        exact Or.inr (Or.inl ⟨Or.inr rfl, two.1⟩)
      · rename_i noBinary
        split
        · rename_i several
          refine Or.inr (Or.inr (Or.inl ⟨rfl, several.1, fun two => ?_⟩))
          exact ⟨fun known => noStatement ⟨two, known⟩, fun known => noBinary ⟨two, known⟩⟩
        · exact Or.inr (Or.inr (Or.inr rfl))

theorem countFault?_operatorKind (ctx : Context) (symbol : String) (count : Nat) :
    countFault? (operatorKind ctx symbol count) count = none := by
  rcases operatorKind_cases ctx symbol count with
    ⟨same, one⟩ | ⟨same | same, two⟩ | ⟨same, several, _⟩ | same
  · rw [same, one]
    rfl
  · rw [same, two]
    rfl
  · rw [same, two]
    rfl
  · rw [same, countFault?, if_neg (by omega)]
  · rw [same]
    rfl

theorem application_eq_ok (ordinary : symbol ≠ ellipsis)
    (each : ∀ operand ∈ operands, operand.isMarker = false) :
    application ctx symbol operands =
      .ok (node (operatorKind ctx symbol operands.length) symbol operands) := by
  have unmarked : operands.any isMarker = false := by
    simpa [List.any_eq_false] using each
  refine application_eq_ok_iff.mpr ⟨operatorKind ctx symbol operands.length, ?_, ?_⟩
  · simp [applicationKind, ordinary, unmarked]
  · rw [build, (shapeFault?_eq_none_iff _ _).mpr]
    refine ⟨countFault?_operatorKind ctx symbol _, ?_⟩
    intro operand member marks
    simp [each operand member] at marks

theorem application_map {kind : Kind} {f : Expr → Expr}
    (same : ∀ operand ∈ operands, (f operand).isMarker = operand.isMarker)
    (built : application ctx symbol operands = .ok (node kind symbol operands)) :
    application ctx symbol (operands.map f) = .ok (node kind symbol (operands.map f)) := by
  have markers : (operands.map f).any isMarker = operands.any isMarker := by
    rw [Bool.eq_iff_iff, List.any_map, List.any_eq_true, List.any_eq_true]
    exact exists_congr fun operand => and_congr_right fun member => by
      simp only [Function.comp_apply, same operand member]
  obtain ⟨found, known, made⟩ := application_eq_ok_iff.mp built
  have sameNode := eq_of_build made
  injection sameNode with sameKind
  subst sameKind
  refine application_eq_ok_iff.mpr ⟨kind, by rwa [List.length_map, markers], ?_⟩
  unfold build at made ⊢
  split at made
  · simp at made
  · rename_i fits
    rw [shapeFault?_map f kind operands same, fits]

end

theorem build_unread (kind : Kind) (symbol : String) (children : List Expr) :
    (build kind symbol children).Ends (fun _ => True) Fault.IsUnread := by
  unfold build
  split
  · exact Or.inr ⟨_, rfl⟩
  · trivial

theorem applicationKind_ends (ctx : Context) (symbol : String) (count : Nat) (marked : Bool) :
    (applicationKind ctx symbol count marked).Ends (fun _ => True) Fault.IsParse := by
  unfold applicationKind
  split
  · split
    · trivial
    · exact ⟨_, rfl⟩
  · split
    · split
      · split
        · trivial
        · exact ⟨_, rfl⟩
      · exact ⟨_, rfl⟩
    · trivial

theorem application_unread (ctx : Context) (symbol : String) (operands : List Expr) :
    (application ctx symbol operands).Ends (fun _ => True) Fault.IsUnread := by
  rw [application_eq_bind]
  exact Attempt.Ends.bind ((applicationKind_ends ctx symbol _ _).imp_fault fun _ cause =>
    Or.inl cause) fun kind _ _ => build_unread kind symbol operands

end Parse

end Stepwise
