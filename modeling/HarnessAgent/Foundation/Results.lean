/-! # Rules for results -/

namespace Results

theorem error_ne_ok {ε α : Type} {error : ε} {value : α} :
    (Except.error error : Except ε α) ≠ .ok value := by
  intro impossible
  cases impossible

theorem bind_eq_ok {ε α β : Type} {first : Except ε α} {next : α → Except ε β} {result : β} :
    (first >>= next) = .ok result ↔ ∃ value, first = .ok value ∧ next value = .ok result := by
  cases first with
  | error error =>
      refine iff_of_false error_ne_ok ?_
      intro found
      rcases found with ⟨value, impossible, -⟩
      cases impossible
  | ok value =>
      constructor
      · intro ended
        exact ⟨value, rfl, ended⟩
      · intro found
        rcases found with ⟨other, same, ended⟩
        cases same
        exact ended

theorem isOk_bind_ok {α β : Type} {parts : Except String α} (finish : α → β) :
    (∃ text, (parts >>= fun part => .ok (finish part)) = .ok text) ↔ ∃ part, parts = .ok part := by
  constructor
  · rintro ⟨text, done⟩
    rcases bind_eq_ok.mp done with ⟨part, first, -⟩
    exact ⟨part, first⟩
  · rintro ⟨part, first⟩
    exact ⟨finish part, bind_eq_ok.mpr ⟨part, first, rfl⟩⟩

end Results
