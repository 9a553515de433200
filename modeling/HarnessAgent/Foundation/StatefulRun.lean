import Mathlib.Order.Defs.Unbundled

/-! # Runs with a state

Computations that end with a value or an error and, in both cases, in a state.
-/

inductive Outcome (ε σ α : Type) where
  | ok (value : α) (state : σ)
  | error (error : ε) (state : σ)

structure StatefulRun (ε σ α : Type) where
  run : σ → Outcome ε σ α

namespace Outcome

variable {ε σ α : Type}

def final : Outcome ε σ α → σ
  | .ok _ state => state
  | .error _ state => state

@[simp] theorem final_ok (value : α) (state : σ) :
    (.ok value state : Outcome ε σ α).final = state := rfl

@[simp] theorem final_error (error : ε) (state : σ) :
    (.error error state : Outcome ε σ α).final = state := rfl

end Outcome

namespace StatefulRun

variable {ε ε' σ α β γ : Type}

instance : Monad (StatefulRun ε σ) where
  pure value := ⟨fun state => .ok value state⟩
  bind first next := ⟨fun state =>
    match first.run state with
    | .ok value between => (next value).run between
    | .error error between => .error error between⟩

def read : StatefulRun ε σ σ where
  run state := .ok state state

def fail (error : ε) : StatefulRun ε σ α where
  run state := .error error state

def ofExcept (result : Except ε α) : StatefulRun ε σ α where
  run state :=
    match result with
    | .ok value => .ok value state
    | .error error => .error error state

def modify (change : σ → σ) : StatefulRun ε σ Unit where
  run state := .ok () (change state)

def mapError (change : ε → ε') (first : StatefulRun ε σ α) : StatefulRun ε' σ α where
  run state :=
    match first.run state with
    | .ok value final => .ok value final
    | .error error final => .error (change error) final

def attempt (first : StatefulRun ε σ α) : StatefulRun ε' σ (Except ε α) where
  run state :=
    match first.run state with
    | .ok value final => .ok (.ok value) final
    | .error error final => .ok (.error error) final

@[simp] theorem run_pure (value : α) (state : σ) :
    (pure value : StatefulRun ε σ α).run state = .ok value state := rfl

@[simp] theorem run_read (state : σ) : (read : StatefulRun ε σ σ).run state = .ok state state := rfl

@[simp] theorem run_fail (error : ε) (state : σ) :
    (fail error : StatefulRun ε σ α).run state = .error error state := rfl

@[simp] theorem run_modify (change : σ → σ) (state : σ) :
    (modify change : StatefulRun ε σ Unit).run state = .ok () (change state) := rfl

variable {first : StatefulRun ε σ α} {next : α → StatefulRun ε σ β} {state : σ} {value : α}

theorem bind_of_ok (ran : first.run state = .ok value between) :
    (first >>= next).run state = (next value).run between := by
  change (match first.run state with
    | .ok value between => (next value).run between
    | .error error between => .error error between) = _
  rw [ran]

theorem bind_of_error {error : ε} (ran : first.run state = .error error between) :
    (first >>= next).run state = .error error between := by
  change (match first.run state with
    | .ok value between => (next value).run between
    | .error error between => .error error between) = _
  rw [ran]

theorem ext (same : ∀ state, first.run state = second.run state) : first = second := by
  cases first
  cases second
  rw [StatefulRun.mk.injEq]
  funext state
  exact same state

theorem run_id_map (first : StatefulRun ε σ α) (state : σ) :
    (id <$> first).run state = first.run state := by
  cases ran : first.run state with
  | ok value between => exact bind_of_ok ran
  | error error between => exact bind_of_error ran

theorem run_bind_assoc (first : StatefulRun ε σ α) (second : α → StatefulRun ε σ β)
    (third : β → StatefulRun ε σ γ) (state : σ) :
    (first >>= second >>= third).run state =
      (first >>= fun value => second value >>= third).run state := by
  cases ran : first.run state with
  | error error between => rw [bind_of_error (bind_of_error ran), bind_of_error ran]
  | ok value between =>
      rw [bind_of_ok ran]
      cases onward : (second value).run between with
      | ok _ _ => rw [bind_of_ok ((bind_of_ok ran).trans onward), bind_of_ok onward]
      | error _ _ => rw [bind_of_error ((bind_of_ok ran).trans onward), bind_of_error onward]

instance : LawfulMonad (StatefulRun ε σ) := by
  refine LawfulMonad.mk' _ ?_ ?_ ?_
  · intro α first
    exact ext (run_id_map first)
  · intro α β value next
    rfl
  · intro α β γ first second third
    exact ext (run_bind_assoc first second third)

variable {final : σ}

theorem bind_eq_ok {value : β} :
    (first >>= next).run state = .ok value final ↔
      ∃ middle between, first.run state = .ok middle between ∧
        (next middle).run between = .ok value final := by
  cases ran : first.run state with
  | ok middle between =>
      rw [bind_of_ok ran]
      simp [and_assoc]
  | error error between =>
      rw [bind_of_error ran]
      simp

theorem bind_eq_error {error : ε} :
    (first >>= next).run state = .error error final ↔
      first.run state = .error error final ∨
        ∃ middle between, first.run state = .ok middle between ∧
          (next middle).run between = .error error final := by
  cases ran : first.run state with
  | ok middle between =>
      rw [bind_of_ok ran]
      simp [and_assoc]
  | error error between =>
      rw [bind_of_error ran]
      simp

theorem ofExcept_eq_ok {result : Except ε α} :
    (ofExcept result : StatefulRun ε σ α).run state = .ok value final ↔
      result = .ok value ∧ final = state := by
  cases result with
  | ok value => simp [ofExcept, eq_comm]
  | error error => simp [ofExcept]

theorem bind_ofExcept_eq_ok {result : Except ε α} {value : β} :
    ((ofExcept result : StatefulRun ε σ α) >>= next).run state = .ok value final ↔
      ∃ middle, result = .ok middle ∧ (next middle).run state = .ok value final := by
  rw [bind_eq_ok]
  simp only [ofExcept_eq_ok, and_assoc, exists_and_left, exists_eq_left]

theorem mapError_eq_ok {change : ε → ε'} :
    (mapError change first).run state = .ok value final ↔ first.run state = .ok value final := by
  cases ran : first.run state with
  | ok value state => simp [mapError, ran]
  | error error state => simp [mapError, ran]

theorem final_mapError (change : ε → ε') (first : StatefulRun ε σ α) (state : σ) :
    ((mapError change first).run state).final = (first.run state).final := by
  cases ran : first.run state with
  | ok value state => simp [mapError, ran]
  | error error state => simp [mapError, ran]

def Leads (relation : σ → σ → Prop) (first : StatefulRun ε σ α) : Prop :=
  ∀ state, relation state (first.run state).final

section

variable {relation : σ → σ → Prop}

theorem leads_pure [Std.Refl relation] (value : α) :
    Leads relation (pure value : StatefulRun ε σ α) :=
  fun state => Std.Refl.refl state

theorem leads_fail [Std.Refl relation] (error : ε) :
    Leads relation (fail error : StatefulRun ε σ α) :=
  fun state => Std.Refl.refl state

theorem leads_ofExcept [Std.Refl relation] (result : Except ε α) :
    Leads relation (ofExcept result : StatefulRun ε σ α) := by
  intro state
  cases result with
  | ok value => exact Std.Refl.refl state
  | error error => exact Std.Refl.refl state

theorem leads_bind [IsTrans σ relation] (leads : Leads relation first)
    (onward : ∀ value, Leads relation (next value)) : Leads relation (first >>= next) := by
  intro state
  have start := leads state
  cases ran : first.run state with
  | ok value between =>
      rw [ran] at start
      rw [bind_of_ok ran]
      exact IsTrans.trans _ _ _ start (onward value between)
  | error error between =>
      rw [ran] at start
      rw [bind_of_error ran]
      exact start

theorem Leads.of_ok (leads : Leads relation first) (ran : first.run state = .ok value final) :
    relation state final := by
  have reached := leads state
  rw [ran] at reached
  exact reached

theorem Leads.of_error {error : ε} (leads : Leads relation first)
    (ran : first.run state = .error error final) : relation state final := by
  have reached := leads state
  rw [ran] at reached
  exact reached

theorem leads_mapError (change : ε → ε') (leads : Leads relation first) :
    Leads relation (mapError change first) := by
  intro state
  rw [final_mapError]
  exact leads state

theorem leads_attempt (leads : Leads relation first) :
    Leads relation (attempt first : StatefulRun ε' σ (Except ε α)) := by
  intro state
  have reached := leads state
  rw [attempt]
  dsimp only
  cases ran : first.run state with
  | ok value final =>
      rw [ran] at reached
      exact reached
  | error error final =>
      rw [ran] at reached
      exact reached

end

end StatefulRun
