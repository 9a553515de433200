import Mathlib.Data.List.Nodup
import Mathlib.Data.List.Perm.Basic
import Mathlib.Data.List.Perm.Lattice
import Mathlib.Order.Lattice

/-! # Polling with a cursor

A reader asks again and again for the rows with a key from a cursor on, drops those that it
has had, and puts the cursor to the key of the last row that it got. No row is lost or
delivered twice as long as none is added with a smaller key than the cursor.
-/

namespace CursorPolling

variable {α ι κ : Type} [LinearOrder κ] (id : α → ι) (key : α → κ)

def due (cursor : κ) (rows : List α) : List α :=
  rows.filter fun row => decide (cursor ≤ key row)

/-- What holds between the polls: nothing is delivered twice, and what is not yet delivered is
still ahead of the cursor. -/
structure Delivering (start : κ) (rows : List α) (cursor : κ) (delivered : List α) : Prop where
  distinct : (rows.map id).Nodup
  started : start ≤ cursor
  once : (delivered.map id).Nodup
  only : ∀ row ∈ delivered, row ∈ rows ∧ start ≤ key row
  ahead : ∀ row ∈ rows, start ≤ key row → row ∈ delivered ∨ cursor ≤ key row

variable {id key} {start cursor : κ} {rows delivered answer : List α}

theorem mem_due {row : α} : row ∈ due key cursor rows ↔ row ∈ rows ∧ cursor ≤ key row := by
  rw [due, List.mem_filter, decide_eq_true_eq]

theorem nodup_due (distinct : (rows.map id).Nodup) : ((due key cursor rows).map id).Nodup :=
  distinct.sublist (List.filter_sublist.map id)

theorem delivering_initial (distinct : (rows.map id).Nodup) :
    Delivering id key start rows start [] where
  distinct := distinct
  started := le_refl start
  once := List.nodup_nil
  only := fun _ member => nomatch member
  ahead := fun _ _ due => .inr due

theorem Delivering.added (delivering : Delivering id key start rows cursor delivered)
    (fresh : id row ∉ rows.map id) (late : start ≤ key row → cursor ≤ key row) :
    Delivering id key start (rows ++ [row]) cursor delivered where
  distinct := by
    rw [List.map_append, List.map_singleton]
    exact List.nodup_append_comm.mp (List.nodup_cons.mpr ⟨fresh, delivering.distinct⟩)
  started := delivering.started
  once := delivering.once
  only := by
    intro own member
    have known := delivering.only own member
    exact ⟨List.mem_append_left _ known.1, known.2⟩
  ahead := by
    intro own member due
    rcases List.mem_append.mp member with old | new
    · exact delivering.ahead own old due
    · rw [List.mem_singleton.mp new] at due ⊢
      exact .inr (late due)

variable (key) in
def advance (cursor : κ) (answer : List α) : κ :=
  (answer.getLast?.map key).getD cursor

variable [DecidableEq ι]

variable (id) in
def receive (delivered answer : List α) : List α :=
  delivered ++ answer.filter fun row => decide (id row ∉ delivered.map id)

omit [LinearOrder κ] in
theorem mem_receive {row : α} :
    row ∈ receive id delivered answer ↔
      row ∈ delivered ∨ row ∈ answer ∧ id row ∉ delivered.map id := by
  rw [receive, List.mem_append, List.mem_filter, decide_eq_true_eq]

theorem nodup_receive (once : (delivered.map id).Nodup) (distinct : (answer.map id).Nodup) :
    ((receive id delivered answer).map id).Nodup := by
  rw [receive, List.map_append]
  apply List.Nodup.append once
  · exact distinct.sublist (List.filter_sublist.map id)
  · intro identifier inDelivered inFresh
    rcases List.mem_map.mp inFresh with ⟨row, fresh, rfl⟩
    exact of_decide_eq_true (List.mem_filter.mp fresh).2 inDelivered

namespace Delivering

variable (delivering : Delivering id key start rows cursor delivered)
variable (answers : answer.Perm (due key cursor rows))

include delivering answers

theorem mem_receive_iff {row : α} :
    row ∈ receive id delivered answer ↔ row ∈ rows ∧ start ≤ key row := by
  rw [mem_receive, answers.mem_iff, mem_due]
  constructor
  · intro either
    rcases either with old | ⟨⟨member, ahead⟩, -⟩
    · exact delivering.only row old
    · exact ⟨member, le_trans delivering.started ahead⟩
  · intro due
    by_cases known : id row ∈ delivered.map id
    · left
      rcases List.mem_map.mp known with ⟨other, inDelivered, same⟩
      have one := List.inj_on_of_nodup_map delivering.distinct
        (delivering.only other inDelivered).1 due.1 same
      rwa [← one]
    · rcases delivering.ahead row due.1 due.2 with old | ahead
      · exact .inl old
      · exact .inr ⟨⟨due.1, ahead⟩, known⟩

theorem once_receive : ((receive id delivered answer).map id).Nodup :=
  nodup_receive delivering.once ((answers.map id).nodup_iff.mpr (nodup_due delivering.distinct))

theorem perm_receive : (receive id delivered answer).Perm (due key start rows) := by
  have once := delivering.once_receive answers
  have distinct : ((due key start rows).map id).Nodup := nodup_due delivering.distinct
  apply (List.perm_ext_iff_of_nodup once.of_map distinct.of_map).mpr
  intro row
  rw [delivering.mem_receive_iff answers, mem_due]

theorem polled :
    Delivering id key start rows (advance key cursor answer) (receive id delivered answer) where
  distinct := delivering.distinct
  started := by
    rw [advance]
    cases last : answer.getLast? with
    | none => exact delivering.started
    | some row =>
        have ahead := (mem_due.mp (answers.mem_iff.mp (List.mem_of_getLast? last))).2
        exact le_trans delivering.started ahead
  once := delivering.once_receive answers
  only := fun _ member => (delivering.mem_receive_iff answers).mp member
  ahead := fun _ member due => .inl ((delivering.mem_receive_iff answers).mpr ⟨member, due⟩)

end Delivering

end CursorPolling
