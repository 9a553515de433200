import Mathlib.Data.List.Infix

/-! # Splitting a text

The parts of a text between the occurrences of a separator of two different characters.
Such occurrences cannot overlap, so a text that is put together from parts around the
separator is split at least there.
-/

namespace Text

section Parts

variable {α : Type}

theorem not_separator_of_mem_splitOnP {separator : α → Bool} {whole part : List α}
    (member : part ∈ whole.splitOnP separator) : ∀ element ∈ part, separator element = false := by
  induction whole generalizing part with
  | nil =>
      rw [List.splitOnP_nil, List.mem_singleton] at member
      rw [member]
      intro element member
      cases member
  | cons first rest induction =>
      rw [List.splitOnP_cons_eq_if_modifyHead] at member
      split at member
      next =>
        rcases List.mem_cons.mp member with rfl | later
        · intro element member
          cases member
        · exact induction later
      next other =>
        cases parts : rest.splitOnP separator with
        | nil => exact absurd parts (List.splitOnP_ne_nil _ _)
        | cons head tail =>
            rw [parts] at member induction
            rcases List.mem_cons.mp member with rfl | later
            · intro element inside
              rcases List.mem_cons.mp inside with rfl | later
              · simpa using other
              · exact induction List.mem_cons_self element later
            · exact induction (List.mem_cons_of_mem _ later)

theorem sublist_of_mem_splitOnP {separator : α → Bool} {whole part : List α}
    (member : part ∈ whole.splitOnP separator) : part.Sublist whole := by
  induction whole generalizing part with
  | nil =>
      rw [List.splitOnP_nil, List.mem_singleton] at member
      rw [member]
  | cons first rest induction =>
      rw [List.splitOnP_cons_eq_if_modifyHead] at member
      split at member
      · rcases List.mem_cons.mp member with rfl | later
        · exact List.nil_sublist _
        · exact (induction later).cons first
      · cases parts : rest.splitOnP separator with
        | nil => exact absurd parts (List.splitOnP_ne_nil _ _)
        | cons head tail =>
            rw [parts] at member induction
            rcases List.mem_cons.mp member with rfl | later
            · exact (induction List.mem_cons_self).cons_cons first
            · exact (induction (List.mem_cons_of_mem _ later)).cons first

end Parts

def splitPair (first second : Char) : List Char → List (List Char)
  | [] => [[]]
  | [character] => [[character]]
  | character :: next :: rest =>
      if character = first ∧ next = second then [] :: splitPair first second rest
      else (splitPair first second (next :: rest)).modifyHead (character :: ·)

def beforePair (first second : Char) (text : List Char) : List Char :=
  (splitPair first second text).headD []

variable {first second : Char}

theorem splitPair_ne_nil (text : List Char) : splitPair first second text ≠ [] := by
  induction text using splitPair.induct first second with
  | case1 => exact List.cons_ne_nil _ _
  | case2 character => exact List.cons_ne_nil _ _
  | case3 character next rest separates induction =>
      rw [splitPair, if_pos separates]
      exact List.cons_ne_nil _ _
  | case4 character next rest other induction =>
      rw [splitPair, if_neg other]
      intro lacking
      exact induction (List.modifyHead_eq_nil_iff.mp lacking)

theorem splitPair_separator (rest : List Char) :
    splitPair first second (first :: second :: rest) = [] :: splitPair first second rest := by
  rw [splitPair, if_pos ⟨rfl, rfl⟩]

variable {text : List Char}

theorem not_infix_of_short (short : text.length < 2) : ¬[first, second] <:+: text :=
  fun inside => absurd inside.length_le (Nat.not_le.mpr short)

theorem pair_infix_append {left right : List Char} :
    [first, second] <:+: left ++ right ↔
      [first, second] <:+: left ∨ [first, second] <:+: right ∨
        (left.getLast? = some first ∧ right.head? = some second) := by
  induction left with
  | nil => simp
  | cons character left induction =>
      rw [List.cons_append, List.infix_cons_iff, induction, List.infix_cons_iff]
      cases left with
      | nil =>
          cases right with
          | nil => simp
          | cons next right =>
              have joined : [first, second] <+: character :: ([] ++ next :: right) ↔
                  character = first ∧ next = second := by
                rw [List.nil_append, List.cons_prefix_cons, List.cons_prefix_cons,
                  and_iff_left List.nil_prefix, eq_comm, @eq_comm _ next]
              rw [joined, or_comm]
              simp [List.cons_prefix_cons]
      | cons next left =>
          rw [List.cons_append, List.getLast?_cons_cons]
          simp [List.cons_prefix_cons, or_assoc]

theorem splitPair_append (different : first ≠ second) (left right : List Char) :
    splitPair first second (left ++ first :: second :: right) =
      splitPair first second left ++ splitPair first second right := by
  induction left using splitPair.induct first second with
  | case1 => exact splitPair_separator right
  | case2 character =>
      have apart : ¬(character = first ∧ first = second) := fun both => different both.2
      have split : splitPair first second (character :: first :: second :: right) =
          (splitPair first second (first :: second :: right)).modifyHead (character :: ·) := by
        rw [splitPair, if_neg apart]
      rw [List.singleton_append, split, splitPair_separator]
      rfl
  | case3 character next rest separates induction =>
      rw [List.cons_append, List.cons_append, splitPair, splitPair, if_pos separates,
        if_pos separates, induction]
      rfl
  | case4 character next rest other induction =>
      rw [List.cons_append, List.cons_append, splitPair, splitPair, if_neg other, if_neg other,
        ← List.cons_append, induction]
      cases parts : splitPair first second (next :: rest) with
      | nil => exact absurd parts (splitPair_ne_nil _)
      | cons head tail => rfl

theorem splitPair_of_not_infix (absent : ¬[first, second] <:+: text) :
    splitPair first second text = [text] := by
  induction text using splitPair.induct first second with
  | case1 => rfl
  | case2 character => rfl
  | case3 character next rest separates induction =>
      rcases separates with ⟨rfl, rfl⟩
      exact absurd ⟨[], rest, rfl⟩ absent
  | case4 character next rest other induction =>
      rw [splitPair, if_neg other, induction]
      · rfl
      · intro inside
        exact absent (inside.trans (List.suffix_cons _ _).isInfix)

theorem beforePair_isPrefix (text : List Char) : beforePair first second text <+: text := by
  rw [beforePair]
  induction text using splitPair.induct first second with
  | case1 => exact List.prefix_refl _
  | case2 character => exact List.prefix_refl _
  | case3 character next rest separates induction =>
      rw [splitPair, if_pos separates]
      exact List.nil_prefix
  | case4 character next rest other induction =>
      rw [splitPair, if_neg other]
      cases parts : splitPair first second (next :: rest) with
      | nil => exact List.nil_prefix
      | cons head tail =>
          rw [parts] at induction
          exact List.cons_prefix_cons.mpr ⟨rfl, induction⟩

theorem not_infix_of_mem_splitPair {text part : List Char}
    (member : part ∈ splitPair first second text) : ¬[first, second] <:+: part := by
  induction text using splitPair.induct first second generalizing part with
  | case1 =>
      rcases List.mem_singleton.mp member with rfl
      exact not_infix_of_short (by simp)
  | case2 character =>
      rcases List.mem_singleton.mp member with rfl
      exact not_infix_of_short (by simp)
  | case3 character next rest separates induction =>
      rw [splitPair, if_pos separates] at member
      rcases List.mem_cons.mp member with rfl | later
      · exact not_infix_of_short (by simp)
      · exact induction later
  | case4 character next rest other induction =>
      rw [splitPair, if_neg other] at member
      cases parts : splitPair first second (next :: rest) with
      | nil => exact absurd parts (splitPair_ne_nil _)
      | cons head tail =>
          rw [parts, List.modifyHead_cons] at member
          rw [parts] at induction
          rcases List.mem_cons.mp member with rfl | later
          · intro inside
            rcases List.infix_cons_iff.mp inside with starts | later
            · have started := @beforePair_isPrefix first second (next :: rest)
              rw [beforePair, parts, List.headD_cons] at started
              rcases List.cons_prefix_cons.mp starts with ⟨same, latter⟩
              have following := latter.trans started
              rcases List.cons_prefix_cons.mp following with ⟨sameNext, -⟩
              exact other ⟨same.symm, sameNext.symm⟩
            · exact induction List.mem_cons_self later
          · exact induction (List.mem_cons_of_mem _ later)

theorem not_infix_beforePair (text : List Char) :
    ¬[first, second] <:+: beforePair first second text := by
  rw [beforePair]
  cases parts : splitPair first second text with
  | nil => exact absurd parts (splitPair_ne_nil _)
  | cons head tail =>
      apply @not_infix_of_mem_splitPair first second text
      rw [parts]
      exact List.mem_cons_self

theorem beforePair_append (different : first ≠ second) (absent : ¬[first, second] <:+: text)
    (rest : List Char) : beforePair first second (text ++ first :: second :: rest) = text := by
  rw [beforePair, splitPair_append different, splitPair_of_not_infix absent]
  rfl

theorem splitPair_intercalate (different : first ≠ second) (present : texts ≠ []) :
    splitPair first second (List.intercalate [first, second] texts) =
      texts.flatMap (splitPair first second) := by
  induction texts with
  | nil => exact absurd rfl present
  | cons text rest induction =>
      cases rest with
      | nil => rw [List.intercalate_singleton, List.flatMap_singleton]
      | cons next rest =>
          rw [List.intercalate_cons_cons, List.append_assoc, List.cons_append, List.cons_append,
            List.nil_append, splitPair_append different, induction (List.cons_ne_nil _ _)]
          rfl

/-- A start without the separator, and without its first character at the end, stays in
the first part. -/
theorem prefix_beforePair {front : List Char} (absent : ¬[first, second] <:+: front)
    (ends : front.getLast? ≠ some first) (rest : List Char) :
    front <+: beforePair first second (front ++ rest) := by
  rw [beforePair]
  induction front with
  | nil => exact List.nil_prefix
  | cons character front induction =>
      cases front with
      | nil =>
          have other : character ≠ first := fun same => ends (same ▸ rfl)
          cases rest with
          | nil => exact List.prefix_refl _
          | cons next rest =>
              have apart : ¬(character = first ∧ next = second) := fun both => other both.1
              rw [List.singleton_append, splitPair, if_neg apart]
              cases parts : splitPair first second (next :: rest) with
              | nil => exact absurd parts (splitPair_ne_nil _)
              | cons head tail => exact List.cons_prefix_cons.mpr ⟨rfl, List.nil_prefix⟩
      | cons next front =>
          have apart : ¬(character = first ∧ next = second) := by
            intro both
            rcases both with ⟨rfl, rfl⟩
            exact absent ⟨[], front, rfl⟩
          have later : ¬[first, second] <:+: next :: front := fun inside =>
            absent (inside.trans (List.suffix_cons _ _).isInfix)
          have inner := induction later ends
          rw [List.cons_append, List.cons_append, splitPair, if_neg apart, ← List.cons_append]
          cases parts : splitPair first second (next :: front ++ rest) with
          | nil => exact absurd parts (splitPair_ne_nil _)
          | cons head tail =>
              rw [parts] at inner
              exact List.cons_prefix_cons.mpr ⟨rfl, inner⟩

end Text
