import HarnessAgent.Foundation.Text

/-! # Identifiers

Names whose first character is of one class and whose other characters are of another one.
Where a text starts with such names, they are beginnings of the longest of them.
-/

namespace HarnessAgent

def IsIdentifier (isStart isPart : Char → Bool) (name : List Char) : Prop :=
  ∃ first parts, name = first :: parts ∧ isStart first = true ∧
    ∀ character ∈ parts, isPart character = true

variable {isStart isPart : Char → Bool}

theorem isIdentifier_of_read (read : Text.identifier isStart isPart text = some (name, rest)) :
    text = name ++ rest ∧ IsIdentifier isStart isPart name := by
  cases text with
  | nil => cases read
  | cons first text =>
      rw [Text.identifier] at read
      split at read
      · next starts =>
          cases read
          constructor
          · rw [List.cons_append, List.takeWhile_append_dropWhile]
          · exact ⟨first, _, rfl, starts, fun _ member => List.mem_takeWhile_imp member⟩
      · cases read

theorem IsIdentifier.read_append (named : IsIdentifier isStart isPart name) (rest : List Char) :
    Text.identifier isStart isPart (name ++ rest) =
      some (name ++ rest.takeWhile isPart, rest.dropWhile isPart) := by
  rcases named with ⟨first, parts, rfl, starts, all⟩
  rw [List.cons_append, Text.identifier, if_pos starts, List.takeWhile_append_of_pos all,
    List.dropWhile_append_of_pos all]
  rfl

theorem identifier_eq_some_iff {text name rest : List Char} :
    Text.identifier isStart isPart text = some (name, rest) ↔
      text = name ++ rest ∧ IsIdentifier isStart isPart name ∧
        ∀ character ∈ rest.head?, isPart character = false := by
  constructor
  · intro read
    rcases isIdentifier_of_read read with ⟨split, named⟩
    refine ⟨split, named, ?_⟩
    rw [split, named.read_append] at read
    have all : rest.dropWhile isPart = rest := (Prod.mk.inj (Option.some.inj read)).2
    intro character first
    rw [← all] at first
    have stops := List.head?_dropWhile_not isPart rest
    rw [first] at stops
    exact stops
  · intro longest
    rcases longest with ⟨split, named, ends⟩
    rw [split, named.read_append]
    cases rest with
    | nil => rw [List.takeWhile_nil, List.dropWhile_nil, List.append_nil]
    | cons next rest =>
        have stops : ¬isPart next = true := by
          rw [ends next rfl]
          exact Bool.false_ne_true
        rw [List.takeWhile_cons_of_neg stops, List.dropWhile_cons_of_neg stops, List.append_nil]

end HarnessAgent
