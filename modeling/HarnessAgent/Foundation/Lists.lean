import Mathlib.Data.List.Forall2
import Mathlib.Data.List.Perm.Basic

/-! # Rules for lists -/

namespace HarnessAgent

theorem append_eq_iff_of_sublist {α : Type} {left right wholeLeft wholeRight : List α}
    (inLeft : left.Sublist wholeLeft) (inRight : right.Sublist wholeRight) :
    left ++ right = wholeLeft ++ wholeRight ↔ left = wholeLeft ∧ right = wholeRight := by
  constructor
  · intro same
    have lengths := congrArg List.length same
    rw [List.length_append, List.length_append] at lengths
    have leftLength := inLeft.length_le
    have rightLength := inRight.length_le
    exact ⟨inLeft.eq_of_length (by omega), inRight.eq_of_length (by omega)⟩
  · rintro ⟨sameLeft, sameRight⟩
    rw [sameLeft, sameRight]

theorem flatMap_sublist_iff {α β : Type} {part whole : α → List β} {items : List α}
    (inside : ∀ item ∈ items, (part item).Sublist (whole item)) :
    (items.flatMap part).Sublist (items.flatMap whole) ∧
      (items.flatMap part = items.flatMap whole ↔ ∀ item ∈ items, part item = whole item) := by
  induction items with
  | nil => exact ⟨List.Sublist.refl _, by simp⟩
  | cons item items induction =>
      have first := inside item List.mem_cons_self
      rcases induction (fun other member => inside other (List.mem_cons_of_mem _ member)) with
        ⟨later, same⟩
      rw [List.flatMap_cons, List.flatMap_cons, List.forall_mem_cons, ← same]
      exact ⟨first.append later, append_eq_iff_of_sublist first later⟩

theorem exists_of_forall₂_append {α β : Type} {relation : α → β → Prop} {left right : List α}
    {whole : List β} (related : List.Forall₂ relation (left ++ right) whole) :
    ∃ first second, whole = first ++ second ∧ List.Forall₂ relation left first ∧
      List.Forall₂ relation right second := by
  induction left generalizing whole with
  | nil => exact ⟨[], whole, rfl, .nil, related⟩
  | cons item left induction =>
      cases related with
      | cons own later =>
          obtain ⟨first, second, rfl, front, back⟩ := induction later
          exact ⟨_ :: first, second, rfl, .cons own front, back⟩

theorem mapM_eq_some_of_forall₂ {α β : Type} {read : α → Option β} {texts : List α}
    {results : List β} (reads : List.Forall₂ (fun text result => read text = some result) texts
      results) : texts.mapM read = some results := by
  induction reads with
  | nil => rfl
  | cons first others induction =>
      rw [List.mapM_cons, first, induction]
      rfl

theorem filter_perm_iff {α : Type} {rows : List α} {first second : α → Bool} :
    (rows.filter first).Perm (rows.filter second) ↔
      ∀ row ∈ rows, (first row = true ↔ second row = true) := by
  constructor
  · intro same row member
    have mem := same.mem_iff (a := row)
    rwa [List.mem_filter, List.mem_filter, and_iff_right member, and_iff_right member] at mem
  · intro same
    rw [List.filter_congr fun row member => Bool.eq_iff_iff.mpr (same row member)]

end HarnessAgent
