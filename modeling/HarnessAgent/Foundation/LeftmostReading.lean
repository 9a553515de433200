import Mathlib.Data.List.Basic

/-! # Leftmost readings

What is looked for in a text cuts it into gaps and occurrences: each occurrence begins as
early as it can after the one before it. A text has one such reading, and a scan from left
to right finds it.
-/

namespace LeftmostReading

variable {α β : Type}

/-- Which texts start with an occurrence, with its value and the rest of the text. -/
abbrev Occurs (α β : Type) := List α → β → List α → Prop

structure Lawful (occurs : Occurs α β) : Prop where
  unique : ∀ {text value other rest remaining},
    occurs text value rest → occurs text other remaining → value = other ∧ rest = remaining
  splits : ∀ {text value rest}, occurs text value rest →
    ∃ first inner, text = first :: (inner ++ rest)

def Free (occurs : Occurs α β) (part after : List α) : Prop :=
  ∀ start, start ≠ [] → start <:+ part → ∀ value rest, ¬occurs (start ++ after) value rest

inductive Reads (occurs : Occurs α β) : List α → List (List α × β) → List α → Prop
  | last {text : List α} (free : Free occurs text []) : Reads occurs text [] text
  | next {gap text rest last : List α} {value : β} {parts : List (List α × β)}
      (free : Free occurs gap text) (here : occurs text value rest)
      (later : Reads occurs rest parts last) :
      Reads occurs (gap ++ text) ((gap, value) :: parts) last

def replaced (replacement : β → List α) (parts : List (List α × β)) (last : List α) : List α :=
  (parts.flatMap fun part => part.1 ++ replacement part.2) ++ last

def gaps (parts : List (List α × β)) (last : List α) : List (List α) :=
  parts.map Prod.fst ++ [last]

variable {occurs : Occurs α β}

theorem free_nil (after : List α) : Free occurs [] after := by
  intro start shown inside
  exact absurd (List.suffix_nil.mp inside) shown

theorem Free.cons {first : α} {part after : List α} (free : Free occurs part after)
    (none : ∀ value rest, ¬occurs (first :: (part ++ after)) value rest) :
    Free occurs (first :: part) after := by
  intro start shown inside
  rcases List.suffix_cons_iff.mp inside with rfl | inside
  · exact none
  · exact free start shown inside

theorem Free.length_le (same : gap ++ text = other ++ after) (free : Free occurs other after)
    (here : occurs text value rest) : other.length ≤ gap.length := by
  rcases List.append_eq_append_iff.mp same with ⟨more, split, tail⟩ | ⟨more, split, -⟩
  · cases more with
    | nil => exact Nat.le_of_eq (by rw [split, List.append_nil])
    | cons first more =>
        rw [tail] at here
        exact absurd here (free _ (List.cons_ne_nil _ _) ⟨gap, split.symm⟩ _ _)
  · rw [split, List.length_append]
    omega

theorem Reads.unique (lawful : Lawful occurs) {last : List α} {parts : List (List α × β)}
    (reads : Reads occurs text parts last) (otherReads : Reads occurs text others otherLast) :
    others = parts ∧ otherLast = last := by
  induction reads generalizing others otherLast with
  | last free =>
      cases otherReads with
      | last => exact ⟨rfl, rfl⟩
      | @next gap text rest _ value _ _ here _ =>
          rcases lawful.splits here with ⟨first, inner, rfl⟩
          rw [← List.append_nil (first :: (inner ++ rest))] at here
          exact absurd here (free _ (List.cons_ne_nil _ _) (List.suffix_append gap _) _ _)
  | @next gap text rest last value parts free here later induction =>
      generalize whole : gap ++ text = start at otherReads
      cases otherReads with
      | last otherFree =>
          subst whole
          rcases lawful.splits here with ⟨first, inner, rfl⟩
          rw [← List.append_nil (first :: (inner ++ rest))] at here
          exact absurd here (otherFree _ (List.cons_ne_nil _ _) (List.suffix_append gap _) _ _)
      | @next otherGap otherText otherRest _ otherValue _ otherFree otherHere otherLater =>
          have shorter := Free.length_le whole otherFree here
          have longer := Free.length_le whole.symm free otherHere
          rcases List.append_inj whole (Nat.le_antisymm longer shorter) with ⟨rfl, rfl⟩
          rcases lawful.unique here otherHere with ⟨rfl, rfl⟩
          rcases induction otherLater with ⟨rfl, rfl⟩
          exact ⟨rfl, rfl⟩

theorem Reads.free_of_mem_gaps {last : List α} {parts : List (List α × β)}
    (reads : Reads occurs text parts last) (member : gap ∈ gaps parts last) :
    ∃ after, Free occurs gap after := by
  induction reads with
  | last free =>
      cases List.mem_singleton.mp member
      exact ⟨[], free⟩
  | @next _ text _ _ _ _ free _ _ induction =>
      rcases List.mem_cons.mp member with rfl | later
      · exact ⟨text, free⟩
      · exact induction later

theorem Reads.occurs_of_mem {last : List α} {parts : List (List α × β)}
    (reads : Reads occurs text parts last) (member : part ∈ parts) :
    ∃ start rest, occurs start part.2 rest := by
  induction reads with
  | last => cases member
  | @next _ text rest _ _ _ _ here _ induction =>
      rcases List.mem_cons.mp member with rfl | later
      · exact ⟨text, rest, here⟩
      · exact induction later

/-- A scan that copies what is not part of an occurrence: how much of an occurrence is
still to be skipped, and the rest of the text. -/
def scan (find : List α → Option (β × List α)) : Nat → List α → List (α ⊕ β)
  | _, [] => []
  | skip + 1, _ :: rest => scan find skip rest
  | 0, first :: rest =>
      match find (first :: rest) with
      | some (value, remaining) => .inr value :: scan find (rest.length - remaining.length) rest
      | none => .inl first :: scan find 0 rest

def items (parts : List (List α × β)) (last : List α) : List (α ⊕ β) :=
  (parts.flatMap fun part => part.1.map .inl ++ [.inr part.2]) ++ last.map .inl

theorem items_cons (part : List α × β) (parts : List (List α × β)) (last : List α) :
    items (part :: parts) last = part.1.map .inl ++ .inr part.2 :: items parts last := by
  simp [items]

/-- In place of each item of a reading stands the element or the replacement. -/
theorem flatMap_items (replacement : β → List α) (parts : List (List α × β)) (last : List α) :
    (items parts last).flatMap (Sum.elim (fun single => [single]) replacement) =
      replaced replacement parts last := by
  have copied : ∀ text : List α, (text.map (Sum.inl : α → α ⊕ β)).flatMap
      (Sum.elim (fun single => [single]) replacement) = text := by
    intro text
    rw [List.flatMap_map]
    exact List.flatMap_singleton' text
  induction parts with
  | nil =>
      rw [items, replaced, List.flatMap_nil, List.flatMap_nil, List.nil_append,
        List.nil_append, copied]
  | cons part parts induction =>
      rw [items_cons, List.flatMap_append, copied, List.flatMap_cons, induction, replaced,
        replaced, List.flatMap_cons]
      simp

theorem flatMap_items_values {γ : Type} (write : β → List γ) (parts : List (List α × β))
    (last : List α) :
    (items parts last).flatMap (Sum.elim (fun _ => []) write) =
      parts.flatMap fun part => write part.2 := by
  have silent : ∀ text : List α, (text.map (Sum.inl : α → α ⊕ β)).flatMap
      (Sum.elim (fun _ => []) write) = [] := by
    intro text
    rw [List.flatMap_map]
    exact List.flatMap_eq_nil_iff.mpr fun _ _ => rfl
  induction parts with
  | nil =>
      rw [items, List.flatMap_nil, List.nil_append, silent]
      rfl
  | cons part parts induction =>
      rw [items_cons, List.flatMap_append, silent, List.nil_append, List.flatMap_cons, induction,
        List.flatMap_cons]
      rfl

theorem Reads.cons {first : α} {text last : List α} {parts : List (List α × β)}
    (reads : Reads occurs text parts last)
    (none : ∀ value rest, ¬occurs (first :: text) value rest) :
    ∃ others remaining, Reads occurs (first :: text) others remaining ∧
      items others remaining = .inl first :: items parts last := by
  cases reads with
  | last free =>
      rw [← List.append_nil text] at none
      exact ⟨[], first :: text, .last (free.cons none), rfl⟩
  | @next gap text rest _ value parts free here later =>
      refine ⟨(first :: gap, value) :: parts, last, .next (free.cons none) here later, ?_⟩
      rw [items_cons, items_cons]
      rfl

theorem scan_skip (find : List α → Option (β × List α)) (inner rest : List α) :
    scan find inner.length (inner ++ rest) = scan find 0 rest := by
  induction inner with
  | nil => rfl
  | cons first inner induction => exact induction

theorem exists_reads_scan (lawful : Lawful occurs)
    (finds : ∀ text value rest, find text = some (value, rest) ↔ occurs text value rest)
    (text : List α) :
    ∃ parts last, Reads occurs text parts last ∧ scan find 0 text = items parts last := by
  induction size : text.length using Nat.strongRecOn generalizing text with
  | _ size induction =>
      subst size
      cases text with
      | nil => exact ⟨[], [], .last (free_nil []), rfl⟩
      | cons first rest =>
          rw [scan]
          cases found : find (first :: rest) with
          | none =>
              have none : ∀ value remaining, ¬occurs (first :: rest) value remaining := by
                intro value remaining here
                rw [(finds _ _ _).mpr here] at found
                cases found
              rcases induction rest.length (Nat.lt_succ_self _) rest rfl with
                ⟨parts, last, reads, scanned⟩
              rcases reads.cons none with ⟨others, remaining, longer, listed⟩
              dsimp only
              rw [scanned, ← listed]
              exact ⟨others, remaining, longer, rfl⟩
          | some occurrence =>
              rcases occurrence with ⟨value, remaining⟩
              have here := (finds _ _ _).mp found
              rcases lawful.splits here with ⟨same, inner, split⟩
              cases split
              have shorter : remaining.length < (first :: (inner ++ remaining)).length := by
                rw [List.length_cons, List.length_append]
                omega
              rcases induction remaining.length shorter remaining rfl with
                ⟨parts, last, reads, scanned⟩
              dsimp only
              rw [List.length_append, Nat.add_sub_cancel, scan_skip, scanned]
              exact ⟨([], value) :: parts, last, .next (free_nil _) here reads, rfl⟩

end LeftmostReading
