import Mathlib.Data.List.Basic
import Mathlib.Data.List.GetD
import Mathlib.Data.List.Range

/-! # Loops that try again

A bounded loop over attempts. An attempt ends the loop with a result, ends it without
one, or calls for another attempt, and the loop can be halted before an attempt. The
attempts that are made are kept, so that a run can be spoken of as a whole.
-/

namespace HarnessAgent

namespace RetryLoop

universe u

variable {α : Type u}

inductive Verdict (α : Type u)
  | done (result : α)
  | stop
  | again

structure Trace (α : Type u) where
  made : List Nat
  result : Option α

def Trace.after (attempt : Nat) (later : Trace α) : Trace α :=
  { later with made := attempt :: later.made }

@[simp] theorem Trace.made_after (attempt : Nat) (later : Trace α) :
    (later.after attempt).made = attempt :: later.made := rfl

@[simp] theorem Trace.result_after (attempt : Nat) (later : Trace α) :
    (later.after attempt).result = later.result := rfl

def run (halted : Nat → Bool) (verdict : Nat → Verdict α) : (retries attempt : Nat) → Trace α
  | retries, attempt =>
      if halted attempt then { made := [], result := none }
      else
        match verdict attempt with
        | .done result => { made := [attempt], result := some result }
        | .stop => { made := [attempt], result := none }
        | .again =>
            match retries with
            | 0 => { made := [attempt], result := none }
            | more + 1 => (run halted verdict more (attempt + 1)).after attempt

variable {halted : Nat → Bool} {verdict : Nat → Verdict α}

theorem run_zero (attempt : Nat) :
    run halted verdict 0 attempt =
      if halted attempt then { made := [], result := none }
      else
        match verdict attempt with
        | .done result => { made := [attempt], result := some result }
        | .stop => { made := [attempt], result := none }
        | .again => { made := [attempt], result := none } := by
  rw [run.eq_def]

theorem run_succ (more attempt : Nat) :
    run halted verdict (more + 1) attempt =
      if halted attempt then { made := [], result := none }
      else
        match verdict attempt with
        | .done result => { made := [attempt], result := some result }
        | .stop => { made := [attempt], result := none }
        | .again => (run halted verdict more (attempt + 1)).after attempt := by
  rw [run.eq_def]

variable {attempt : Nat}

theorem run_of_halted (stopped : halted attempt = true) (retries : Nat) :
    run halted verdict retries attempt = { made := [], result := none } := by
  cases retries with
  | zero => rw [run_zero, if_pos stopped]
  | succ more => rw [run_succ, if_pos stopped]

theorem run_of_done {result : α} (running : halted attempt = false)
    (decided : verdict attempt = .done result) (retries : Nat) :
    run halted verdict retries attempt = { made := [attempt], result := some result } := by
  cases retries with
  | zero => rw [run_zero, running, if_neg Bool.false_ne_true, decided]
  | succ more => rw [run_succ, running, if_neg Bool.false_ne_true, decided]

theorem run_of_stop (running : halted attempt = false) (decided : verdict attempt = .stop)
    (retries : Nat) :
    run halted verdict retries attempt = { made := [attempt], result := none } := by
  cases retries with
  | zero => rw [run_zero, running, if_neg Bool.false_ne_true, decided]
  | succ more => rw [run_succ, running, if_neg Bool.false_ne_true, decided]

theorem run_zero_of_again (running : halted attempt = false) (decided : verdict attempt = .again) :
    run halted verdict 0 attempt = { made := [attempt], result := none } := by
  rw [run_zero, running, if_neg Bool.false_ne_true, decided]

theorem run_succ_of_again (running : halted attempt = false) (decided : verdict attempt = .again)
    (more : Nat) :
    run halted verdict (more + 1) attempt =
      (run halted verdict more (attempt + 1)).after attempt := by
  rw [run_succ, running, if_neg Bool.false_ne_true, decided]

/-- The rule for runs: a loop is halted, ends with or without a result, has no retry left,
or goes on with the next attempt. -/
theorem run_rule (halted : Nat → Bool) (verdict : Nat → Verdict α)
    {motive : (retries attempt : Nat) → Prop}
    (halt : ∀ retries attempt, halted attempt = true →
      run halted verdict retries attempt = { made := [], result := none } →
        motive retries attempt)
    (done : ∀ retries attempt result, halted attempt = false → verdict attempt = .done result →
      run halted verdict retries attempt = { made := [attempt], result := some result } →
        motive retries attempt)
    (stop : ∀ retries attempt, halted attempt = false →
      (verdict attempt = .stop ∨ verdict attempt = .again ∧ retries = 0) →
      run halted verdict retries attempt = { made := [attempt], result := none } →
        motive retries attempt)
    (again : ∀ more attempt, halted attempt = false → verdict attempt = .again →
      run halted verdict (more + 1) attempt =
        (run halted verdict more (attempt + 1)).after attempt →
      motive more (attempt + 1) → motive (more + 1) attempt)
    (retries attempt : Nat) : motive retries attempt := by
  induction retries generalizing attempt with
  | zero =>
      cases running : halted attempt with
      | true => exact halt 0 attempt running (run_of_halted running 0)
      | false =>
          cases decided : verdict attempt with
          | done result => exact done 0 attempt result running decided (run_of_done running decided 0)
          | stop => exact stop 0 attempt running (.inl decided) (run_of_stop running decided 0)
          | again =>
              exact stop 0 attempt running (.inr ⟨decided, rfl⟩) (run_zero_of_again running decided)
  | succ more induction =>
      cases running : halted attempt with
      | true => exact halt (more + 1) attempt running (run_of_halted running (more + 1))
      | false =>
          cases decided : verdict attempt with
          | done result =>
              exact done (more + 1) attempt result running decided
                (run_of_done running decided (more + 1))
          | stop =>
              exact stop (more + 1) attempt running (.inl decided)
                (run_of_stop running decided (more + 1))
          | again =>
              exact again more attempt running decided (run_succ_of_again running decided more)
                (induction (attempt + 1))

theorem length_made_le (retries attempt : Nat) :
    (run halted verdict retries attempt).made.length ≤ 1 + retries := by
  induction retries, attempt using run_rule halted verdict with
  | halt retries attempt halts ran => simp [ran]
  | done retries attempt result running decided ran => simp [ran]
  | stop retries attempt running decided ran => simp [ran]
  | again more attempt running decided ran induction =>
      rw [ran, Trace.made_after, List.length_cons]
      omega

theorem made_eq_range (retries attempt : Nat) :
    (run halted verdict retries attempt).made =
      List.range' attempt (run halted verdict retries attempt).made.length := by
  induction retries, attempt using run_rule halted verdict with
  | halt retries attempt halts ran => simp [ran]
  | done retries attempt result running decided ran => simp [ran]
  | stop retries attempt running decided ran => simp [ran]
  | again more attempt running decided ran induction =>
      rw [ran, Trace.made_after, List.length_cons, List.range'_succ, ← induction]

variable {retries : Nat}

theorem le_of_mem_made (made : index ∈ (run halted verdict retries attempt).made) :
    attempt ≤ index := by
  rw [made_eq_range] at made
  exact (List.mem_range'_1.mp made).1

theorem first_mem_made_iff :
    attempt ∈ (run halted verdict retries attempt).made ↔ halted attempt = false := by
  induction retries, attempt using run_rule halted verdict with
  | halt retries attempt halts ran => simp [ran, halts]
  | done retries attempt result running decided ran => simp [ran, running]
  | stop retries attempt running decided ran => simp [ran, running]
  | again more attempt running decided ran induction => simp [ran, running]

/-- After an attempt that was made, the next one is made exactly if the attempt calls for
it, a retry is left for it and the loop is not halted before it. -/
theorem next_mem_made_iff (made : index ∈ (run halted verdict retries attempt).made) :
    index + 1 ∈ (run halted verdict retries attempt).made ↔
      verdict index = .again ∧ index < attempt + retries ∧ halted (index + 1) = false := by
  induction retries, attempt using run_rule halted verdict with
  | halt retries attempt halts ran =>
      rw [ran] at made
      cases made
  | done retries attempt result running decided ran =>
      rw [ran] at made ⊢
      rcases List.mem_singleton.mp made with rfl
      simp [decided]
  | stop retries attempt running decided ran =>
      rw [ran] at made ⊢
      rcases List.mem_singleton.mp made with rfl
      rcases decided with stops | ⟨-, rfl⟩
      · simp [stops]
      · simp
  | again more attempt running decided ran induction =>
      rw [ran, Trace.made_after] at made ⊢
      rcases List.mem_cons.mp made with rfl | later
      · have other : index + 1 ≠ index := by omega
        have within : index < index + (more + 1) := by omega
        rw [List.mem_cons, or_iff_right other, first_mem_made_iff]
        simp [decided, within]
      · have behind := le_of_mem_made later
        have other : index + 1 ≠ attempt := by omega
        have same : index < attempt + 1 + more ↔ index < attempt + (more + 1) := by omega
        rw [List.mem_cons, or_iff_right other, induction later, same]

theorem result_eq_some_iff {result : α} :
    (run halted verdict retries attempt).result = some result ↔
      ∃ last, (run halted verdict retries attempt).made.getLast? = some last ∧
        verdict last = .done result := by
  induction retries, attempt using run_rule halted verdict with
  | halt retries attempt halts ran => simp [ran]
  | done retries attempt own running decided ran => simp [ran, decided]
  | stop retries attempt running decided ran =>
      rcases decided with stops | ⟨calls, -⟩
      · simp [ran, stops]
      · simp [ran, calls]
  | again more attempt running decided ran induction =>
      rw [ran, Trace.made_after, Trace.result_after, induction]
      cases later : (run halted verdict more (attempt + 1)).made with
      | nil => simp [decided]
      | cons next rest => rw [List.getLast?_cons_cons]

theorem result_eq_some_iff_first {result : α} :
    (run halted verdict retries attempt).result = some result ↔
      ∃ last, attempt ≤ last ∧ last ≤ attempt + retries ∧
        (∀ index, attempt ≤ index → index < last →
          halted index = false ∧ verdict index = .again) ∧
        halted last = false ∧ verdict last = .done result := by
  induction retries, attempt using run_rule halted verdict with
  | halt retries attempt halts ran =>
      rw [ran]
      refine ⟨nofun, ?_⟩
      rintro ⟨last, behind, within, before, running, decided⟩
      rcases Nat.eq_or_lt_of_le behind with rfl | later
      · rw [halts] at running
        cases running
      · have first := (before attempt (Nat.le_refl attempt) later).1
        rw [halts] at first
        cases first
  | done retries attempt own running decided ran =>
      rw [ran]
      constructor
      · rintro ⟨⟩
        exact ⟨attempt, Nat.le_refl attempt, Nat.le_add_right attempt retries,
          fun index behind before => absurd behind (by omega), running, decided⟩
      · rintro ⟨last, behind, within, before, -, gives⟩
        rcases Nat.eq_or_lt_of_le behind with rfl | later
        · rw [decided] at gives
          cases gives
          rfl
        · have first := (before attempt (Nat.le_refl attempt) later).2
          rw [decided] at first
          cases first
  | stop retries attempt running decided ran =>
      rw [ran]
      refine ⟨nofun, ?_⟩
      rintro ⟨last, behind, within, before, -, gives⟩
      rcases Nat.eq_or_lt_of_le behind with rfl | later
      · rcases decided with stops | ⟨calls, -⟩
        · rw [stops] at gives
          cases gives
        · rw [calls] at gives
          cases gives
      · have first := (before attempt (Nat.le_refl attempt) later).2
        rcases decided with stops | ⟨-, rfl⟩
        · rw [stops] at first
          cases first
        · omega
  | again more attempt running decided ran induction =>
      rw [ran, Trace.result_after, induction]
      constructor
      · rintro ⟨last, behind, within, before, rest⟩
        refine ⟨last, by omega, by omega, ?_, rest⟩
        intro index following earlier
        rcases Nat.eq_or_lt_of_le following with rfl | later
        · exact ⟨running, decided⟩
        · exact before index later earlier
      · rintro ⟨last, behind, within, before, notHalted, gives⟩
        rcases Nat.eq_or_lt_of_le behind with rfl | later
        · rw [decided] at gives
          cases gives
        · refine ⟨last, later, by omega, ?_, notHalted, gives⟩
          intro index following
          exact before index (by omega)

end RetryLoop

end HarnessAgent
