import Mathlib.Data.List.Basic

/-! # Runs of events

A system that takes one event after the other, and conditions on the state in which
an event is taken.
-/

namespace EventRun

variable {σ ε : Type}

def run (step : σ → ε → σ) (state : σ) (events : List ε) : σ :=
  events.foldl step state

def Along (step : σ → ε → σ) (condition : σ → ε → Prop) : σ → List ε → Prop
  | _, [] => True
  | state, event :: rest =>
      condition state event ∧ Along step condition (step state event) rest

def Throughout (step : σ → ε → σ) (good : σ → Prop) (state : σ) (events : List ε) : Prop :=
  ∀ earlier later, events = earlier ++ later → good (run step state earlier)

variable {step : σ → ε → σ}

theorem along_congr (same : ∀ state event, first state event ↔ second state event) (state : σ)
    (events : List ε) : Along step first state events ↔ Along step second state events := by
  induction events generalizing state with
  | nil => rfl
  | cons event rest induction => rw [Along, Along, same, induction]

variable {state : σ}

theorem throughout_cons {good : σ → Prop} {event : ε} {rest : List ε} :
    Throughout step good state (event :: rest) ↔
      good state ∧ Throughout step good (step state event) rest := by
  constructor
  · intro always
    constructor
    · exact always [] (event :: rest) rfl
    · intro earlier later split
      exact always (event :: earlier) later (by rw [split, List.cons_append])
  · rintro ⟨first, others⟩ earlier later split
    cases earlier with
    | nil => exact first
    | cons taken remaining =>
        cases split
        exact others remaining later rfl

theorem along_append {condition : σ → ε → Prop} {earlier later : List ε} :
    Along step condition state (earlier ++ later) ↔
      Along step condition state earlier ∧ Along step condition (run step state earlier) later := by
  induction earlier generalizing state with
  | nil => exact (iff_of_eq (true_and _)).symm
  | cons event rest induction =>
      rw [List.cons_append, Along, Along, induction, and_assoc]
      rfl

theorem run_append_singleton (state : σ) (earlier : List ε) (event : ε) :
    run step state (earlier ++ [event]) = step (run step state earlier) event := by
  rw [run, List.foldl_append]
  rfl

theorem run_keeps {invariant : σ → Prop} {condition : ε → Prop}
    (keeps : ∀ state event, invariant state → condition event → invariant (step state event))
    (start : invariant state) {events : List ε} (each : ∀ event ∈ events, condition event) :
    invariant (run step state events) := by
  induction events generalizing state with
  | nil => exact start
  | cons event rest induction =>
      rcases List.forall_mem_cons.mp each with ⟨first, others⟩
      exact induction (keeps state event start first) others

/-- What events keep that meet a condition holds in all states of a run of such events. -/
theorem throughout_of_along (keeps : ∀ {state event}, invariant state → condition state event →
      invariant (step state event)) (start : invariant state)
    (along : Along step condition state events) : Throughout step invariant state events := by
  induction events generalizing state with
  | nil =>
      intro earlier later split
      rw [(List.append_eq_nil_iff.mp split.symm).1]
      exact start
  | cons event rest induction =>
      exact throughout_cons.mpr ⟨start, induction (keeps start along.1) along.2⟩

/-- The states of a run are good exactly as long as its events meet a condition: an
event that meets it keeps an invariant, and one that does not leads to a bad state. -/
theorem throughout_iff_along {invariant good : σ → Prop} {condition : σ → ε → Prop}
    (safe : ∀ {state}, invariant state → good state)
    (keeps : ∀ {state event}, invariant state → condition state event →
      invariant (step state event))
    (breaks : ∀ {state event}, invariant state → ¬ condition state event →
      ¬ good (step state event))
    {state : σ} (start : invariant state) (events : List ε) :
    Throughout step good state events ↔ Along step condition state events := by
  induction events generalizing state with
  | nil =>
      refine ⟨fun _ => trivial, ?_⟩
      intro _ earlier later split
      have none : earlier = [] := (List.append_eq_nil_iff.mp split.symm).1
      subst none
      exact safe start
  | cons event rest induction =>
      rw [throughout_cons]
      by_cases meets : condition state event
      · rw [induction (keeps start meets)]
        exact ⟨fun always => ⟨meets, always.2⟩, fun along => ⟨safe start, along.2⟩⟩
      · constructor
        · intro always
          exact absurd (always.2 [] rest rfl) (breaks start meets)
        · intro along
          exact absurd along.1 meets

end EventRun
