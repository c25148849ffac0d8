import Stepwise.Parse.Infix
import Stepwise.Proofs.Parse.Node

/-!
What is true of everything that the infix notation is read as: it is enough to check it of each way
to make an expression from those already read. What is true of every failure is checked of those
that an application to expressions already read can have.
-/

namespace Stepwise.Parse

open Stepwise.Expr

structure Readable (ctx : Context) (P : Expr → Prop) : Prop where
  leaf : ∀ token, Token.isWord token = true → P (leaf ctx token)
  unary : ∀ token inner, isUnaryOperator ctx token = true → P inner → P (.unary token inner)
  variadicTrain : ∀ symbol template, symbol ∈ ctx.assocOps → P template →
    P (variadicTrain symbol template)
  infixNode : ∀ symbol left right, isInfixOperator ctx symbol = true → P left → P right →
    P (infixNode ctx symbol left right)
  application : ∀ token arguments e, Token.isWord token = true →
    (∀ argument ∈ arguments, P argument) → application ctx token arguments = .ok e → P e

structure Reader (ctx : Context) (P : Expr → Prop) (Q : Fault → Prop) : Prop
    extends Readable ctx P where
  parse : ∀ cause, Q (.parse cause)
  application_fault : ∀ token arguments fault, Token.isWord token = true →
    (∀ argument ∈ arguments, P argument) →
    Parse.application ctx token arguments = .error fault → Q fault

section

variable {ctx : Context} {P : Expr → Prop} {Q : Fault → Prop}

theorem Readable.reader (readable : Readable ctx P) : Reader ctx P Fault.IsUnread where
  toReadable := readable
  parse := isUnread_parse
  application_fault token arguments _ _ _ failed :=
    (application_unread ctx token arguments).fault failed

mutual

theorem operation_ends (reader : Reader ctx P Q) (strength : Nat) (tokens : List String) :
    (operation ctx strength tokens).Ends (fun reading => P reading.value) Q := by
  rw [operation]
  have first := operand_ends reader tokens
  split
  · rename_i fault failed
    exact first.fault failed
  · rename_i reading read
    have := reading.shorter
    have all := operators_ends reader strength reading.value reading.rest (first.value read)
    split
    · rename_i fault failed
      exact all.fault failed
    · rename_i continued done
      exact all.value done
termination_by (tokens.length, 2)

theorem operators_ends (reader : Reader ctx P Q) (strength : Nat) (left : Expr)
    (tokens : List String) (here : P left) :
    (operators ctx strength left tokens).Ends (fun continued => P continued.value) Q := by
  cases tokens with
  | nil =>
      rw [operators]
      exact here
  | cons symbol rest =>
      rw [operators]
      split
      · rename_i isInfix
        split
        -- An ellipsis after an associative operator makes the left operand a template.
        · split
          · rename_i known
            have := length_tail_lt_cons symbol rest
            have all := operators_ends reader strength _ rest.tail
              (reader.variadicTrain symbol left known here)
            split
            · rename_i fault failed
              exact all.fault failed
            · rename_i continued done
              exact all.value done
          · exact reader.parse _
        · have right := operation_ends reader (precedence symbol + 1) rest
          split
          · rename_i fault failed
            exact right.fault failed
          · rename_i reading read
            have : reading.rest.length < (symbol :: rest).length :=
              Nat.lt_succ_of_lt reading.shorter
            have all := operators_ends reader strength _ reading.rest
              (reader.infixNode symbol left reading.value isInfix.1 here (right.value read))
            split
            · rename_i fault failed
              exact all.fault failed
            · rename_i continued done
              exact all.value done
      · exact here
termination_by (tokens.length, 0)

theorem operand_ends (reader : Reader ctx P Q) (tokens : List String) :
    (operand ctx tokens).Ends (fun reading => P reading.value) Q := by
  cases tokens with
  | nil =>
      rw [operand]
      exact reader.parse _
  | cons token rest =>
      rw [operand]
      split
      -- A unary operator, a parenthesis, a call and a leaf.
      · rename_i isUnary
        have inner := operand_ends reader rest
        split
        · rename_i fault failed
          exact inner.fault failed
        · rename_i reading read
          exact reader.unary token reading.value isUnary (inner.value read)
      · split
        · have inner := operation_ends reader 0 rest
          split
          · rename_i fault failed
            exact inner.fault failed
          · rename_i reading read
            split
            · exact reader.parse _
            · split
              · exact inner.value read
              · exact reader.parse _
        · split
          · rename_i isWord
            split
            · have := length_tail_lt_cons token rest
              have args := arguments_ends reader rest.tail
              split
              · rename_i fault failed
                exact args.fault failed
              · rename_i reading read
                split
                · rename_i fault failed
                  exact reader.application_fault token _ fault isWord (args.value read) failed
                · rename_i e built
                  exact reader.application token reading.value e isWord (args.value read) built
            · exact reader.leaf token isWord
          · exact reader.parse _
termination_by (tokens.length, 1)

theorem arguments_ends (reader : Reader ctx P Q) (tokens : List String) :
    (arguments ctx tokens).Ends (fun reading => ∀ argument ∈ reading.value, P argument) Q := by
  unfold arguments
  split
  · exact fun argument member => absurd member List.not_mem_nil
  · exact argumentList_ends reader _
termination_by (tokens.length, 4)

theorem argumentList_ends (reader : Reader ctx P Q) (tokens : List String) :
    (argumentList ctx tokens).Ends
      (fun reading => ∀ argument ∈ reading.value, P argument) Q := by
  rw [argumentList]
  have first := operation_ends reader 0 tokens
  split
  · rename_i fault failed
    exact first.fault failed
  · rename_i reading read
    split
    · exact reader.parse _
    · rename_i found after eq
      have := reading.length_lt_of_rest_eq_cons eq
      split
      · have others := argumentList_ends reader after
        split
        · rename_i fault failed
          exact others.fault failed
        · rename_i more readMore
          exact List.forall_mem_cons.mpr ⟨first.value read, others.value readMore⟩
      · split
        · exact List.forall_mem_singleton.mpr (first.value read)
        · exact reader.parse _
termination_by (tokens.length, 3)

end

theorem tokens_ends (reader : Reader ctx P Q) (all : List String) : (tokens ctx all).Ends P Q := by
  unfold tokens
  split
  · exact reader.parse _
  · have reading := operation_ends reader 0 all
    split
    · rename_i fault failed
      exact reading.fault failed
    · rename_i found read
      split
      · exact reading.value read
      · exact reader.parse _

theorem infixed_ends (reader : Reader ctx P Q) (flattens : ∀ e, P e → P (e.flatten ctx.assocOps))
    (shortens : ∀ e, P e → P (e.shorten ctx.binaryOps)) (text : String) :
    (infixed ctx text).Ends P Q := by
  unfold infixed
  have reading := tokens_ends reader (Token.scan text)
  split
  · rename_i fault failed
    exact reading.fault failed
  · rename_i e read
    exact shortens _ (flattens e (reading.value read))

end

end Stepwise.Parse
