import Stepwise.Proofs.Parse.Grammar
import Stepwise.Proofs.Parse.RoundTrip

/-!
How the applied notation can fail. A text that is not read is refused by the reader, but for one
case: the ellipsis applied to an application of itself is refused by the node that it would make.
-/

namespace Stepwise.Parse

open Stepwise.Expr
open Stepwise.Parse.Derivation

theorem build_eq_error {kind : Kind} {symbol : String} {children : List Expr} {fault : Fault} :
    build kind symbol children = .error fault ↔
      ∃ cause, shapeFault? kind children = some cause ∧ fault = .shape cause := by
  unfold build
  split
  · rename_i broken
    simp [broken, eq_comm]
  · rename_i fits
    simp [fits]

section

variable {ctx : Context} {cause : ShapeFault}

theorem application_eq_shape_iff {symbol : String} {operands : List Expr} :
    application ctx symbol operands = .error (.shape cause) ↔
      cause = .strayMarker ∧ symbol = ellipsis ∧ operands.map isMarker = [true] := by
  rw [application_eq_bind, Attempt.bind_eq_error]
  constructor
  · rintro (failed | ⟨kind, found, failed⟩)
    · obtain ⟨_, same⟩ := (applicationKind_ends ctx symbol _ _).fault failed
      simp at same
    · obtain ⟨other, broken, same⟩ := build_eq_error.mp failed
      obtain rfl := Fault.shape.inj same
      rcases applicationKind_cases found with
        ⟨rfl, rfl⟩ | ⟨_, _, one, rfl⟩ | ⟨_, unmarked, rfl⟩
      -- The ellipsis, an associative operator over one marker, and operands without a marker.
      · have one : operands.length = 1 := by
          by_contra several
          simp [applicationKind, several] at found
        obtain ⟨operand, rfl⟩ := List.length_eq_one_iff.mp one
        simp [shapeFault?, countFault?] at broken ⊢
        exact ⟨broken.2.symm, broken.1⟩
      · simp [shapeFault?, countFault?, one] at broken
      · simp [shapeFault?, countFault?_operatorKind, unmarked] at broken
  · rintro ⟨rfl, rfl, marks⟩
    obtain ⟨operand, rfl, isMarker⟩ := List.map_eq_singleton_iff.mp marks
    refine Or.inr ⟨.variadic, by simp [applicationKind], build_eq_error.mpr ⟨_, ?_, rfl⟩⟩
    simp [shapeFault?, countFault?, isMarker]

theorem isSymbol_ellipsis : IsSymbol ellipsis := by decide +kernel

/-- The ellipsis is applied to an application of itself, as a whole or within an operand. The
operands before that one are read, and so are those before it on each level. -/
inductive Doubles (ctx : Context) : List Char → Prop
  | whole (before between after : Blanks) (d : Derivation) (marks : d.isMark = true)
      (placed : d.WellPlaced ctx) :
      Doubles ctx (padded before (spacedText ellipsis between.1 d.chars) after)
  | within (before : Blanks) (symbol : Symbol) (between : Blanks) (inner : List Char)
      (after : Blanks) (read : List Derivation) (part : List Char) (later : List (List Char))
      (split : splitOperands 0 [] inner = .ok (read.map chars ++ part :: later))
      (placed : ∀ d ∈ read, d.WellPlaced ctx) (inside : Doubles ctx part) :
      Doubles ctx (padded before (spacedText symbol.1 between.1 inner) after)

theorem mem_of_mem_part {inner part : List Char} {parts : List (List Char)}
    (split : splitOperands 0 [] inner = .ok parts) (member : part ∈ parts) {c : Char}
    (inPart : c ∈ part) : c ∈ inner := by
  obtain ⟨first, others, rfl, joined⟩ := splitOperands_eq_ok split
  rw [List.reverse_nil, List.nil_append] at joined
  rw [joined, List.mem_append, List.mem_flatMap]
  rcases List.mem_cons.mp member with rfl | other
  · exact Or.inl inPart
  · exact Or.inr ⟨part, other, List.mem_cons_of_mem _ inPart⟩

theorem Doubles.exists_nonblank {text : List Char} (doubles : Doubles ctx text) :
    ∃ c ∈ text, Text.isBlank c = false := by
  cases doubles with
  | whole before between after d marks placed =>
      exact exists_nonblank_padded before ⟨ellipsis, isSymbol_ellipsis⟩ _ after
  | within before symbol between inner after read part later split placed inside =>
      exact exists_nonblank_padded before symbol _ after

theorem Doubles.appliedChars_eq {text : List Char} (doubles : Doubles ctx text) :
    appliedChars ctx text = .error (.shape .strayMarker) := by
  induction doubles with
  | whole before between after d marks placed =>
      obtain ⟨e, evaluated⟩ := (exists_value_iff ctx d).mpr placed
      have split := splitOperands_chars d []
      have nonblank := trim_operands_ne_nil d []
      rw [charsAfter, List.append_nil] at split nonblank
      have operands : [d.chars].mapM (appliedChars ctx) = .ok [e] := by
        rw [List.mapM_cons, appliedChars_chars, evaluated]
        rfl
      have refused : application ctx ellipsis [e] = .error (.shape .strayMarker) :=
        application_eq_shape_iff.mpr ⟨rfl, rfl, by simp [isMarker_of_value evaluated, marks]⟩
      rw [appliedChars_applied ctx before ⟨ellipsis, isSymbol_ellipsis⟩, if_neg nonblank, split]
      exact Attempt.bind_eq_error.mpr (Or.inr ⟨_, rfl,
        Attempt.bind_eq_error.mpr (Or.inr ⟨_, operands, refused⟩)⟩)
  | within before symbol between inner after read part later split placed inside fails =>
      have nonblank : Text.trim inner ≠ [] := by
        obtain ⟨c, inPart, nonblank⟩ := inside.exists_nonblank
        exact Text.trim_ne_nil (mem_of_mem_part split (by simp) inPart) nonblank
      rw [appliedChars_applied, if_neg nonblank]
      refine Attempt.bind_eq_error.mpr (Or.inr ⟨_, split, Attempt.bind_eq_error.mpr (Or.inl ?_)⟩)
      refine Attempt.mapM_eq_error_iff.mpr ⟨_, _, _, rfl, fun text member => ?_, fails⟩
      obtain ⟨d, inRead, rfl⟩ := List.mem_map.mp member
      rw [appliedChars_chars]
      exact (exists_value_iff ctx d).mpr (placed d inRead)

theorem doubled_of_refused {symbol : String} {inner : List Char} {parts : List (List Char)}
    {operands : List Expr} (split : splitOperands 0 [] inner = .ok parts)
    (read : parts.mapM (appliedChars ctx) = .ok operands)
    (refused : application ctx symbol operands = .error (.shape cause)) :
    cause = .strayMarker ∧ symbol = ellipsis ∧
      ∃ d : Derivation, inner = d.chars ∧ d.isMark = true ∧ d.WellPlaced ctx := by
  have readEach := Attempt.exists_mapM_eq_ok_iff.mp ⟨_, read⟩
  obtain ⟨ds, rfl⟩ := exists_map_chars fun part member => by
    obtain ⟨e, readPart⟩ := readEach part member
    exact exists_of_appliedChars readPart
  have reading : appliedChars ctx ∘ chars = Derivation.value ctx :=
    funext (appliedChars_chars ctx)
  rw [List.mapM_map, reading] at read
  obtain ⟨same, isEllipsis, marks⟩ := application_eq_shape_iff.mp refused
  rw [map_isMarker_of_mapM_value read] at marks
  obtain ⟨d, rfl, isMark⟩ := List.map_eq_singleton_iff.mp marks
  obtain ⟨first, others, parts, joined⟩ := splitOperands_eq_ok split
  obtain ⟨rfl, rfl⟩ := List.cons.inj parts
  obtain ⟨e, readAlone⟩ := readEach d.chars (by simp)
  exact ⟨same, isEllipsis, d, by simpa using joined, isMark, wellPlaced_of_read readAlone⟩

theorem exists_part_of_unread {parts : List (List Char)} {fault : Fault}
    (unread : parts.mapM (appliedChars ctx) = .error fault) :
    ∃ (read : List Derivation) (part : List Char) (later : List (List Char)),
      parts = read.map chars ++ part :: later ∧ (∀ d ∈ read, d.WellPlaced ctx) ∧
        appliedChars ctx part = .error fault := by
  obtain ⟨earlier, part, later, rfl, read, failed⟩ := Attempt.mapM_eq_error_iff.mp unread
  obtain ⟨ds, rfl⟩ := exists_map_chars fun part member => by
    obtain ⟨e, readPart⟩ := read part member
    exact exists_of_appliedChars readPart
  refine ⟨ds, part, later, rfl, fun d member => ?_, failed⟩
  obtain ⟨e, readPart⟩ := read d.chars (List.mem_map_of_mem member)
  exact wellPlaced_of_read readPart

theorem Doubles.of_appliedChars {text : List Char}
    (failed : appliedChars ctx text = .error (.shape cause)) :
    cause = .strayMarker ∧ Doubles ctx text := by
  generalize size : text.length = bound
  induction bound using Nat.strongRecOn generalizing text with
  | ind bound ih =>
      rcases text_cases ctx text with
        ⟨_, refused⟩ | ⟨before, symbol, after, rfl⟩ | ⟨before, symbol, between, inner, after, rfl⟩
      · simp [refused] at failed
      · have read := appliedChars_chars ctx (word before symbol after)
        rw [chars] at read
        simp [read, Derivation.value] at failed
      · rw [appliedChars_applied] at failed
        split at failed
        · simp [application_eq_shape_iff] at failed
        · rcases Attempt.bind_eq_error.mp failed with unsplit | ⟨parts, split, failed⟩
          · obtain ⟨_, same⟩ := (splitOperands_ends 0 [] inner).fault unsplit
            simp at same
          · rcases Attempt.bind_eq_error.mp failed with unread | ⟨operands, read, refused⟩
            · obtain ⟨earlier, part, later, rfl, placed, failedPart⟩ := exists_part_of_unread unread
              have listed : part ∈ earlier.map chars ++ part :: later := by simp
              have shorter := length_part split listed before symbol between after
              obtain ⟨same, inside⟩ := ih part.length (size ▸ shorter) failedPart rfl
              exact ⟨same, .within before symbol between inner after earlier part later split placed
                inside⟩
            · obtain ⟨same, isEllipsis, d, rfl, isMark, placed⟩ :=
                doubled_of_refused split read refused
              rw [isEllipsis]
              exact ⟨same, .whole before between after d isMark placed⟩

end

/-- The applied notation is read as a well shaped tree, or refused by the reader, unless the text
applies the ellipsis to an application of itself. -/
theorem appliedChars_eq_shape_iff (ctx : Context) (text : List Char) (cause : ShapeFault) :
    appliedChars ctx text = .error (.shape cause) ↔ cause = .strayMarker ∧ Doubles ctx text := by
  constructor
  · exact Doubles.of_appliedChars
  · rintro ⟨rfl, doubles⟩
    exact doubles.appliedChars_eq

theorem applied_ends (ctx : Context) (text : String) :
    (applied ctx text).Ends WellShaped fun fault =>
      fault.IsParse ∨ fault = .shape .strayMarker ∧ Doubles ctx text.toList := by
  have ends := appliedChars_ends ctx text.toList
  unfold applied
  cases outcome : appliedChars ctx text.toList with
  | ok e => exact (ends.value outcome).wellShaped
  | error fault =>
      rcases ends.fault outcome with refused | ⟨cause, rfl⟩
      · exact Or.inl refused
      · obtain ⟨rfl, doubles⟩ := (appliedChars_eq_shape_iff ctx _ cause).mp outcome
        exact Or.inr ⟨rfl, doubles⟩

end Stepwise.Parse
