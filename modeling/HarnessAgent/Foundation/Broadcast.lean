import Mathlib.Data.List.Basic

/-! # Broadcast channels

A channel that keeps the last values sent, up to its capacity, and a receiver that
reads them in order. A receiver that falls further behind is told so, and goes on
with the oldest value that is still kept.
-/

namespace Broadcast

/-- Everything sent since the receiver subscribed, and how many of it the receiver
has passed. -/
structure Channel (α : Type) where
  sent : List α := []
  next : Nat := 0

inductive Received (α : Type) where
  | empty
  | value (value : α)
  | lagged (missed : Nat)

namespace Channel

variable {α : Type}

def send (channel : Channel α) (value : α) : Channel α :=
  { channel with sent := channel.sent ++ [value] }

def Lags (capacity : Nat) (channel : Channel α) : Prop :=
  channel.next + capacity < channel.sent.length

instance (capacity : Nat) (channel : Channel α) : Decidable (channel.Lags capacity) :=
  inferInstanceAs (Decidable (_ < _))

def recv (capacity : Nat) (channel : Channel α) : Received α × Channel α :=
  if channel.Lags capacity then
    (.lagged (channel.sent.length - capacity - channel.next),
      { channel with next := channel.sent.length - capacity })
  else
    match channel.sent[channel.next]? with
    | none => (.empty, channel)
    | some value => (.value value, { channel with next := channel.next + 1 })

def passed (channel : Channel α) : List α :=
  channel.sent.take channel.next

theorem passed_prefix (channel : Channel α) : channel.passed <+: channel.sent :=
  List.take_prefix _ _

variable {channel : Channel α}

theorem passed_send (within : channel.next ≤ channel.sent.length) (value : α) :
    (channel.send value).passed = channel.passed :=
  List.take_append_of_le_length within

variable {after : Channel α} {capacity : Nat}

theorem sent_recv (taken : channel.recv capacity = (received, after)) :
    after.sent = channel.sent := by
  unfold recv at taken
  split at taken
  · cases taken
    rfl
  · split at taken
    · cases taken
      rfl
    · cases taken
      rfl

theorem recv_eq_value (received : channel.recv capacity = (.value value, after)) :
    channel.next < channel.sent.length ∧ after.next = channel.next + 1 ∧
      after.passed = channel.passed ++ [value] := by
  unfold recv at received
  split at received
  · cases received
  · split at received
    · cases received
    · next found =>
        cases received
        obtain ⟨inside, element⟩ := List.getElem?_eq_some_iff.mp found
        refine ⟨inside, rfl, ?_⟩
        simp only [passed]
        rw [List.take_succ_eq_append_getElem inside, element]

theorem recv_eq_lagged (received : channel.recv capacity = (.lagged missed, after)) :
    channel.Lags capacity := by
  unfold recv at received
  split at received
  · assumption
  · split at received <;> cases received

end Channel

end Broadcast
