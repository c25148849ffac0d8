import Stepwise.Parse.Basic

/-!
The applied notation, in which every operator stands before its operands: `=(+(X,0),X)`. It is
read exactly as written.
-/

namespace Stepwise.Parse

/-- Splits at the commas outside parentheses. `depth` counts the open parentheses and `part` is
the part in progress, last character first. -/
def splitOperands (depth : Nat) (part : List Char) : List Char → Attempt (List (List Char))
  | [] => if depth = 0 then .ok [part.reverse] else .error (.parse .unbalanced)
  | '(' :: rest => splitOperands (depth + 1) ('(' :: part) rest
  | ')' :: rest =>
      match depth with
      | 0 => .error (.parse .unbalanced)
      | outer + 1 => splitOperands outer (')' :: part) rest
  | c :: rest =>
      if c = ',' ∧ depth = 0 then
        match splitOperands 0 [] rest with
        | .ok parts => .ok (part.reverse :: parts)
        | .error fault => .error fault
      else splitOperands depth (c :: part) rest

theorem length_of_mem_splitOperands (depth : Nat) (part cs : List Char) (parts : List (List Char))
    (split : splitOperands depth part cs = .ok parts) :
    ∀ operand ∈ parts, operand.length ≤ part.length + cs.length := by
  fun_induction splitOperands depth part cs generalizing parts with
  | case1 part =>
      simp only [Except.ok.injEq] at split
      subst split
      simp
  | case2 => simp at split
  | case3 depth part rest ih =>
      intro operand member
      have bound := ih parts split operand member
      simp only [List.length_cons] at bound ⊢
      omega
  | case4 => simp at split
  | case5 part rest outer ih =>
      intro operand member
      have bound := ih parts split operand member
      simp only [List.length_cons] at bound ⊢
      omega
  | case6 depth part c rest _ _ _ tail eq ih =>
      simp only [Except.ok.injEq] at split
      subst split
      intro operand member
      rcases List.mem_cons.mp member with rfl | inTail
      · simp
      · have bound := ih tail eq operand inTail
        simp only [List.length_nil, List.length_cons] at bound ⊢
        omega
  | case7 => simp at split
  | case8 depth part c rest _ _ _ ih =>
      intro operand member
      have bound := ih parts split operand member
      simp only [List.length_cons] at bound ⊢
      omega

def endsSymbol (c : Char) : Bool := Text.isBlank c || c = ')' || c = ','

def innerText (cs : List Char) : List Char := ((cs.dropWhile (· ≠ '(')).drop 1).dropLast

theorem length_innerText (cs : List Char) (nonempty : cs ≠ []) :
    (innerText cs).length < cs.length := by
  have positive : 0 < cs.length := List.length_pos_iff.mpr nonempty
  have shorter : (cs.dropWhile (· ≠ '(')).length ≤ cs.length :=
    (List.dropWhile_sublist _).length_le
  simp only [innerText, List.length_dropLast, List.length_drop]
  omega

theorem length_trim (cs : List Char) : (Text.trim cs).length ≤ cs.length := by
  have right : ∀ ds : List Char, (Text.trimRight ds).length ≤ ds.length := fun ds => by
    simpa [Text.trimRight] using (List.dropWhile_sublist Text.isBlank (l := ds.reverse)).length_le
  exact Nat.le_trans (right _) (List.dropWhile_sublist _).length_le

theorem length_operand (text operand : List Char) (parts : List (List Char))
    (nonblank : Text.trim text ≠ [])
    (split : splitOperands 0 [] (innerText (Text.trim text)) = .ok parts)
    (member : operand ∈ parts) : operand.length < text.length := by
  have bound := length_of_mem_splitOperands 0 [] _ parts split operand member
  have inner := length_innerText (Text.trim text) nonblank
  have outer := length_trim text
  simp only [List.length_nil, Nat.zero_add] at bound
  omega

def appliedChars (ctx : Context) (text : List Char) : Attempt Expr :=
  let cs := Text.trim text
  if blank : cs = [] then .error (.parse .empty)
  else if '(' ∉ cs then
    if cs.any endsSymbol then .error (.parse (.invalidSymbol (String.ofList cs)))
    else .ok (leaf ctx (String.ofList cs))
  else
    let symbol := Text.trim (cs.takeWhile (· ≠ '('))
    if symbol = [] ∨ symbol.any endsSymbol then
      .error (.parse (.invalidOperator (String.ofList cs)))
    else if cs.getLast? ≠ some ')' then .error (.parse (.trailingText (String.ofList cs)))
    else if Text.trim (innerText cs) = [] then application ctx (String.ofList symbol) []
    else
      match split : splitOperands 0 [] (innerText cs) with
      | .error fault => .error fault
      | .ok parts => do
          let operands ← parts.attach.mapM fun part =>
            have := length_operand text part.val parts blank split part.property
            appliedChars ctx part.val
          application ctx (String.ofList symbol) operands
termination_by text.length
decreasing_by assumption

def applied (ctx : Context) (text : String) : Attempt Expr := appliedChars ctx text.toList

end Stepwise.Parse
