import Stepwise.Proofs.Text
import Stepwise.Session.Command

/-!
Lines that are made of words. A command is told apart by its first word; what follows it is taken as
it is written, if there is no blank at its ends.
-/

namespace Stepwise

theorem WorksheetCommand.read_spaced {command rest : List Char} (spaceless : ∀ c ∈ command, c ≠ ' ')
    (trimmed : Text.IsTrimmed rest) :
    read (command ++ ' ' :: rest) =
      ofName (String.ofList command) (String.ofList rest) ((Text.words rest).map String.ofList) := by
  have named : (command ++ ' ' :: rest).takeWhile (· ≠ ' ') = command := by
    rw [List.takeWhile_append_of_pos (by simpa using spaceless)]
    simp
  have argument : (command ++ ' ' :: rest).dropWhile (· ≠ ' ') = ' ' :: rest := by
    rw [List.dropWhile_append_of_pos (by simpa using spaceless)]
    simp
  rw [read, named, argument, List.drop_one, List.tail_cons, trimmed.trim]

namespace Request

open Text (IsWord)

theorem read_spaced {command rest : String} (word : IsWord command)
    (plain : command.toList.head? ≠ some '#' ∧ command.toList.head? ≠ some ':')
    (trimmed : Text.IsTrimmed rest.toList) :
    read (command ++ " " ++ rest) =
      .worksheet (.ofName command rest ((Text.words rest.toList).map String.ofList)) := by
  have written : (command ++ " " ++ rest).toList = command.toList ++ ' ' :: rest.toList := by simp
  have whole : Text.trim (command.toList ++ ' ' :: rest.toList) =
      command.toList ++ ' ' :: rest.toList := (word.isTrimmed.around trimmed [' ']).trim
  have starts : ∀ c cs, command.toList ++ ' ' :: rest.toList = c :: cs →
      command.toList.head? = some c := by
    intro c cs same
    obtain ⟨first, others, parts⟩ := List.exists_cons_of_ne_nil word.1
    rw [parts] at same ⊢
    exact congrArg some (List.cons.inj same).1
  rw [read, written, whole]
  split
  · rename_i empty
    simp at empty
  · rename_i cs same
    exact absurd (starts _ _ same) plain.1
  · rename_i cs same
    exact absurd (starts _ _ same) plain.2
  · rw [WorksheetCommand.read_spaced word.ne_space trimmed, String.ofList_toList,
      String.ofList_toList]

theorem read_label {name number : String} (word : IsWord name) (numeral : IsWord number)
    (digits : number.toList.all Text.isDigitLike = true) :
    read ("label " ++ name ++ " " ++ number) = .worksheet (.label name (some number)) := by
  have apart : (name ++ " " ++ number).toList = name.toList ++ ' ' :: number.toList := by simp
  have trimmed : Text.IsTrimmed (name ++ " " ++ number).toList := by
    rw [apart]
    exact word.isTrimmed.around numeral.isTrimmed [' ']
  have same : "label " ++ name ++ " " ++ number = "label" ++ " " ++ (name ++ " " ++ number) := by
    simp [← String.toList_inj]
  have command : IsWord "label" := by
    simp [IsWord, Text.isBlank, Text.inRanges, Text.blankRanges]
  rw [same, read_spaced command (by simp) trimmed, apart, Text.words_pair word numeral]
  simp [WorksheetCommand.ofName, WorksheetCommand.labelling, digits, Text.joined]

theorem read_from {name : String} (word : IsWord name) :
    read ("from " ++ name) = .worksheet (.introduceLabelled name) := by
  have named : name ≠ "" := by
    rintro rfl
    exact word.1 rfl
  have same : "from " ++ name = "from" ++ " " ++ name := rfl
  have command : IsWord "from" := by
    simp [IsWord, Text.isBlank, Text.inRanges, Text.blankRanges]
  rw [same, read_spaced command (by simp) word.isTrimmed]
  simp [WorksheetCommand.ofName, named]

end Request

end Stepwise
