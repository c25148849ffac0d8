import Stepwise.Proofs.Matching.Exchange
import Stepwise.Proofs.Rule.Forms

/-!
The forms of a statement whose variations exchange the operands of a binary operator. There are one
or two, provided that the left side is found to be an instance of itself; a left side that is not,
and not of its mirror image either, gets new forms without end.
-/

namespace Stepwise.Expr

/-- That the operands of a binary operator may be exchanged, as an equation in two variables. -/
structure Exchange where
  symbol : String
  first : String
  second : String
  differ : first ≠ second

def Exchange.law (exchange : Exchange) : Expr :=
  equation (binary exchange.symbol (var exchange.first) (var exchange.second))
    (binary exchange.symbol (var exchange.second) (var exchange.first))

/-- A binary node of one of the operators with its operands exchanged. -/
def mirror? (exchanges : List Exchange) : Expr → Option Expr
  | node .binary symbol [left, right] =>
      if symbol ∈ exchanges.map Exchange.symbol then some (binary symbol right left) else none
  | _ => none

section

variable (exchange : Exchange) {left right : Expr}

theorem Exchange.bindings?_eq (left right : Expr) :
    (binary exchange.symbol left right).bindings?
        (binary exchange.symbol (var exchange.first) (var exchange.second)) =
      some [(exchange.first, left), (exchange.second, right)] := by
  rw [bindings?, binary, binary, matchNode_node _ _ _ _ _ _ _ _ (by decide) (by decide) rfl,
    if_pos ⟨rfl, rfl, rfl⟩]
  simp [matchEach, var, matchNode_var, Bindings.extend?, Table.find?, exchange.differ]

theorem Exchange.byEquation_law (shaped : (binary exchange.symbol left right).WellShaped) :
    (binary exchange.symbol left right).byEquation exchange.law =
      .ok (binary exchange.symbol right left) := by
  have found := exchange.bindings?_eq left right
  have sidePlain (first second : String) :
      (binary exchange.symbol (var first) (var second)).Plain := by
    simp [Plain, var, binary, wellShaped_node, markerFree_node, shapeFault?, countFault?, isMarker]
  rw [Exchange.law, byEquation_equation, maxGroundings]
  by_cases same : binary exchange.symbol (var exchange.first) (var exchange.second) =
      binary exchange.symbol left right
  · obtain ⟨_, _, parts⟩ := node.inj same
    obtain rfl := (List.cons.inj parts).1
    obtain rfl := (List.cons.inj (List.cons.inj parts).2).1
    rw [settle_self]
  · have image : (binary exchange.symbol (var exchange.second) (var exchange.first)).subst
        (Bindings.toSubst [(exchange.first, left), (exchange.second, right)]) =
          binary exchange.symbol right left := by
      rw [binary, subst_node _ _ _ _ (by decide)]
      simp [var, binary, Bindings.toSubst, Table.find?, exchange.differ]
    have built := instantiate_eq_subst [(exchange.first, left), (exchange.second, right)] _
      (sidePlain exchange.second exchange.first).1 (Or.inl (sidePlain _ _).2)
      (image.symm ▸ shaped.exchange)
    rw [image] at built
    exact settle_of_found 6 found same (instantiate_of_markerFree shaped (sidePlain _ _).1
      (sidePlain _ _).2 found) built rfl rfl

theorem Exchange.isSkipped {e : Expr}
    (other : ∀ left right, e ≠ binary exchange.symbol left right) :
    (e.byEquation exchange.law).IsSkipped := by
  have absent : e.bindings? (binary exchange.symbol (var exchange.first) (var exchange.second)) =
      none := by
    obtain ⟨kind, symbol, children⟩ := e
    rw [bindings?, binary, matchNode_node _ _ _ _ _ _ _ _ (by decide) (by decide) rfl]
    refine if_neg ?_
    rintro ⟨rfl, rfl, two⟩
    rcases children with _ | ⟨left, _ | ⟨right, rest⟩⟩
    · simp at two
    · simp at two
    · obtain rfl : rest = [] := by simpa using two
      exact other left right rfl
  exact ⟨_, settle_of_none 7 absent (other _ _).symm⟩

end

theorem exists_mirrored {symbol : String} {first second : Expr}
    (shaped : (binary symbol first second).WellShaped) :
    ∃ covered known,
      Mirrored (binary symbol first second) (binary symbol second first) covered known := by
  have otherShaped := shaped.exchange
  obtain ⟨covered, back⟩ := exists_isInstanceOf otherShaped shaped rfl (onlyMutually_mirror shaped)
  obtain ⟨known, same⟩ := exists_isInstanceOf shaped shaped rfl (onlyMutually_self shaped rfl)
  refine ⟨covered, known, same, ?_, ?_, back⟩
  · rw [isInstanceOf_exchange shaped shaped (onlyMutually_self shaped rfl)
      (onlyMutually_self otherShaped rfl), same]
  · rw [isInstanceOf_exchange shaped otherShaped (onlyMutually_mirror shaped)
      (onlyMutually_mirror otherShaped), back]

theorem Mirrored.lone {symbol : String} {first second : Expr} {covered known : Bool}
    (mirrored : Mirrored (binary symbol first second) (binary symbol second first) covered known)
    (shaped : (binary symbol first second).WellShaped) (yes : covered = true ∨ known = true) :
    (binary symbol first second).LoneTemplates := by
  rcases yes with rfl | rfl
  · obtain ⟨bindings, found⟩ := exists_of_isInstanceOf mirrored.back
    exact (onlyMutually_mirror shaped bindings found).1
  · obtain ⟨bindings, found⟩ := exists_of_isInstanceOf mirrored.same
    exact (onlyMutually_self shaped rfl bindings found).1

/-! Closing under exchanges. -/

section

variable {exchanges : List Exchange} {lhs other : Expr}

theorem mirror?_eq_some (mirror : mirror? exchanges lhs = some other) :
    ∃ symbol left right, lhs = binary symbol left right ∧ other = binary symbol right left ∧
      symbol ∈ exchanges.map Exchange.symbol := by
  unfold mirror? at mirror
  split at mirror
  · obtain ⟨listed, same⟩ := Option.ite_none_right_eq_some.mp mirror
    exact ⟨_, _, _, rfl, (Option.some.inj same).symm, listed⟩
  · simp at mirror

theorem isSkipped_of_unlisted (unlisted : mirror? exchanges lhs = none) :
    ∀ variation ∈ exchanges.map Exchange.law, (lhs.byEquation variation).IsSkipped := by
  intro variation member
  obtain ⟨exchange, listed, rfl⟩ := List.mem_map.mp member
  refine exchange.isSkipped ?_
  rintro left right rfl
  simp [mirror?, binary, List.mem_map_of_mem listed] at unlisted

theorem exchange_turns {symbol : String} {left right : Expr}
    (shaped : (binary symbol left right).WellShaped) {variation : Expr}
    (member : variation ∈ exchanges.map Exchange.law) :
    ((binary symbol left right).byEquation variation).IsSkipped ∨
      (binary symbol left right).byEquation variation = .ok (binary symbol right left) := by
  obtain ⟨exchange, _, rfl⟩ := List.mem_map.mp member
  by_cases same : exchange.symbol = symbol
  · subst same
    exact Or.inr (exchange.byEquation_law shaped)
  · refine Or.inl (exchange.isSkipped fun first second equal => same ?_)
    exact (node.inj equal).2.1.symm

theorem turns_of_listed {symbol : String} {left right : Expr}
    (shaped : (binary symbol left right).WellShaped)
    (listed : symbol ∈ exchanges.map Exchange.symbol) :
    Turns (exchanges.map Exchange.law) (binary symbol left right) (binary symbol right left) := by
  obtain ⟨exchange, member, rfl⟩ := List.mem_map.mp listed
  exact ⟨fun _ => exchange_turns shaped, exchange.law, List.mem_map_of_mem member,
    exchange.byEquation_law shaped⟩

theorem forms_of_mirror {symbol : String} {rhs : Expr} (shaped : (formOf symbol rhs lhs).WellShaped)
    (mirror : mirror? exchanges lhs = some other) :
    ∃ covered known, Mirrored lhs other covered known ∧
      (covered = true ∨ known = true → lhs.LoneTemplates) ∧
      ∀ limit,
        (covered = true → (formOf symbol rhs lhs).forms (limit + 1) (exchanges.map Exchange.law) =
          .ok [formOf symbol rhs lhs]) ∧
        (covered = false → known = true →
          (formOf symbol rhs lhs).forms (limit + 2) (exchanges.map Exchange.law) =
            .ok [formOf symbol rhs lhs, formOf symbol rhs other]) ∧
        (covered = false → known = false →
          (formOf symbol rhs lhs).forms limit (exchanges.map Exchange.law) =
            .error (.tooManyForms limit)) := by
  obtain ⟨operator, left, right, rfl, rfl, listed⟩ := mirror?_eq_some mirror
  have lhsShaped : (binary operator left right).WellShaped := shaped.child (by simp)
  have rhsRoot : rhs.isMarker = false := shaped.child_isMarker_eq_false rfl (by simp)
  have forth := turns_of_listed lhsShaped listed
  have back := turns_of_listed lhsShaped.exchange listed
  obtain ⟨covered, known, mirrored⟩ := exists_mirrored lhsShaped
  refine ⟨covered, known, mirrored, mirrored.lone lhsShaped, fun limit => ⟨?_, ?_, ?_⟩⟩
  · rintro rfl
    exact forms_of_covered forth mirrored limit
  · rintro rfl rfl
    exact forms_of_known rfl rhsRoot forth back mirrored limit
  · rintro rfl rfl
    exact forms_never_end rfl rfl rhsRoot forth back mirrored limit

theorem forms_of_unlisted (symbol : String) (rhs : Expr)
    (unlisted : mirror? exchanges lhs = none) (limit : Nat) :
    (formOf symbol rhs lhs).forms (limit + 1) (exchanges.map Exchange.law) =
      .ok [formOf symbol rhs lhs] := by
  have stays : varyLhs (formOf symbol rhs lhs) lhs rhs [formOf symbol rhs lhs]
      (exchanges.map Exchange.law) = .ok [formOf symbol rhs lhs] :=
    varyLhs_of_covered _ fun variation member =>
      Or.inl (isSkipped_of_unlisted unlisted variation member)
  rw [forms, varyFrom_succ limit rfl stays, varyFrom_done limit (by simp)]

/-- A left side with a template of several nodes is not found an instance even of itself. -/
theorem forms_never_end_of_template {symbol : String} {rhs : Expr}
    (shaped : (formOf symbol rhs lhs).WellShaped) (mirror : (mirror? exchanges lhs).isSome)
    (template : ¬ lhs.LoneTemplates) (limit : Nat) :
    (formOf symbol rhs lhs).forms limit (exchanges.map Exchange.law) =
      .error (.tooManyForms limit) := by
  obtain ⟨other, mirror⟩ := Option.isSome_iff_exists.mp mirror
  obtain ⟨covered, known, _, lone, forms⟩ := forms_of_mirror shaped mirror
  have neither := fun yes => template (lone yes)
  refine (forms limit).2.2 ?_ ?_
  · exact Bool.eq_false_iff.mpr fun yes => neither (Or.inl yes)
  · exact Bool.eq_false_iff.mpr fun yes => neither (Or.inr yes)

/-- Closing a statement under exchanges. A left side that cannot be exchanged has one form; one that
can has one or two as long as it is found an instance of itself, as it is without variadic trains.
Otherwise, and always with a template that is not a variable, new forms keep coming. -/
theorem forms_of_exchanges {symbol : String} {lhs rhs : Expr}
    (shaped : (node .statement symbol [lhs, rhs]).WellShaped) (exchanges : List Exchange) :
    (mirror? exchanges lhs = none → ∀ limit,
      (node .statement symbol [lhs, rhs]).forms (limit + 1) (exchanges.map Exchange.law) =
        .ok [node .statement symbol [lhs, rhs]]) ∧
    ∀ mirrored, mirror? exchanges lhs = some mirrored →
      ∃ covered known, mirrored.isInstanceOf lhs = .ok covered ∧
        lhs.isInstanceOf lhs = .ok known ∧ (lhs.MarkerFree → known = true) ∧
        (¬ lhs.LoneTemplates → covered = false ∧ known = false) ∧
        ∀ limit,
          (covered = true →
            (node .statement symbol [lhs, rhs]).forms (limit + 1) (exchanges.map Exchange.law) =
              .ok [node .statement symbol [lhs, rhs]]) ∧
          (covered = false → known = true →
            (node .statement symbol [lhs, rhs]).forms (limit + 2) (exchanges.map Exchange.law) =
              .ok [node .statement symbol [lhs, rhs], node .statement symbol [mirrored, rhs]]) ∧
          (covered = false → known = false →
            (node .statement symbol [lhs, rhs]).forms limit (exchanges.map Exchange.law) =
              .error (.tooManyForms limit)) := by
  refine ⟨forms_of_unlisted symbol rhs, fun mirrored mirror => ?_⟩
  obtain ⟨covered, known, tests, lone, forms⟩ := forms_of_mirror shaped mirror
  refine ⟨covered, known, tests.back, tests.same, fun free => ?_, fun template => ?_, forms⟩
  · have self := isInstanceOf_self_of_plain ⟨shaped.child (by simp), free⟩
    exact Except.ok.inj (tests.same.symm.trans self)
  · simpa using mt lone template

/-- The two forms of `x + 0 = x`. -/
theorem forms_of_exchanges_neutral :
    (equation (binary "+" (var "x") (const "0")) (var "x")).forms 2
        [(Exchange.mk "+" "a" "b" (by decide)).law] =
      .ok [equation (binary "+" (var "x") (const "0")) (var "x"),
        equation (binary "+" (const "0") (var "x")) (var "x")] := by
  have shaped : (equation (binary "+" (var "x") (const "0")) (var "x")).WellShaped := by decide
  obtain ⟨covered, known, mirrored, _, free, _, forms⟩ :=
    (forms_of_exchanges shaped [⟨"+", "a", "b", by decide⟩]).2 (binary "+" (const "0") (var "x"))
      (by decide)
  have new : (binary "+" (const "0") (var "x")).isInstanceOf (binary "+" (var "x") (const "0")) =
      .ok false := by decide
  exact (forms 0).2.1 (Except.ok.inj (mirrored.symm.trans new)) (free (by decide))

/-- The left side of `y * (x * a + ...) = y` is not recognized. -/
theorem forms_of_scaled_sum_never_end :
    let lhs := binary "*" (var "y")
      (node .train "+" [node .variadic ellipsis [binary "*" (var "x") (var "a")]])
    (equation lhs (var "y")).WellShaped ∧
      ¬ ∃ limit result, (equation lhs (var "y")).forms limit
        [(Exchange.mk "*" "a" "b" (by decide)).law] = .ok result := by
  intro lhs
  have shaped : (equation lhs (var "y")).WellShaped := by decide
  refine ⟨shaped, ?_⟩
  rintro ⟨limit, result, found⟩
  have listed : (mirror? [Exchange.mk "*" "a" "b" (by decide)] lhs).isSome := by decide
  have endless := forms_never_end_of_template shaped listed (by decide) limit
  exact absurd (endless.symm.trans found) (by simp)

end

end Stepwise.Expr
