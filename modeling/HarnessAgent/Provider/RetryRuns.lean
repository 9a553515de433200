import HarnessAgent.Foundation.RetryLoop
import HarnessAgent.Provider.ClaudeProvider

/-! # The attempts of a query

The retry loop of the Claude provider, seen as a run: which attempts are made, and which
of them the delivered chunks come from.
-/

namespace HarnessAgent

namespace Claude

open Provider RetryLoop

variable {ε : Type} (library : Library ε)

/-! ## The loop as a run -/

def verdict (query : Query) (attempt : Nat) : Verdict (List MessageChunk) :=
  match runSingleAttempt library query.timeoutMs (query.attempts attempt) with
  | .finished chunks => .done chunks
  | .panicked => .stop
  | .failed message =>
      if (classifyAndEnrichError message []
          (query.attempts attempt).cancelledAfter).shouldRetry then .again
      else .stop

def cancelledBefore (query : Query) (attempt : Nat) : Bool :=
  (query.attempts attempt).cancelledBefore

/-- The attempts of a query and the chunks of the successful one. There are none if the
CLI or the servers' configuration is not found. -/
def queryTrace (query : Query) : Trace (List MessageChunk) :=
  match query.cliPath, query.mcpConfig with
  | .ok _, .ok _ => run (cancelledBefore query) (verdict library query) maxSubprocessRetries 0
  | _, _ => { made := [], result := none }

/-- The warnings about the configuration, which come before the first attempt. -/
def configWarnings (query : Query) : List MessageChunk :=
  match query.cliPath, query.mcpConfig with
  | .ok _, .ok _ => query.nodeConfigWarnings.map fun message => .system ("⚠️ " ++ message)
  | _, _ => []

variable {library}

theorem attemptLoop_eq_run (query : Query) (retries attempt : Nat) :
    attemptLoop library query retries attempt =
      (run (cancelledBefore query) (verdict library query) retries attempt).result.getD [] := by
  fun_induction attemptLoop library query retries attempt with
  | case1 retries attempt cancelled => rw [run_of_halted cancelled, Option.getD_none]
  | case2 retries attempt running chunks outcome =>
      have decided : verdict library query attempt = .done chunks := by
        simp only [verdict, outcome]
      rw [run_of_done (Bool.eq_false_of_not_eq_true running) decided, Option.getD_some]
  | case3 retries attempt running outcome =>
      have decided : verdict library query attempt = .stop := by
        simp only [verdict, outcome]
      rw [run_of_stop (Bool.eq_false_of_not_eq_true running) decided, Option.getD_none]
  | case4 attempt running message outcome enriched retry =>
      have decided : verdict library query attempt = .again := by
        simp only [verdict, outcome]
        exact if_pos retry
      rw [run_zero_of_again (Bool.eq_false_of_not_eq_true running) decided, Option.getD_none]
  | case5 attempt running message outcome enriched retry more induction =>
      have decided : verdict library query attempt = .again := by
        simp only [verdict, outcome]
        exact if_pos retry
      rw [run_succ_of_again (Bool.eq_false_of_not_eq_true running) decided, induction,
        Trace.result_after]
  | case6 retries attempt running message outcome enriched stops =>
      have decided : verdict library query attempt = .stop := by
        simp only [verdict, outcome]
        exact if_neg stops
      rw [run_of_stop (Bool.eq_false_of_not_eq_true running) decided, Option.getD_none]

theorem sendQuery_eq_trace (query : Query) :
    sendQuery library query =
      configWarnings query ++ (queryTrace library query).result.getD [] := by
  unfold sendQuery configWarnings queryTrace
  cases query.cliPath with
  | error message => rfl
  | ok path =>
      cases query.mcpConfig with
      | error message => rfl
      | ok loaded => rw [attemptLoop_eq_run]

theorem queryTrace_eq_run_or (library : Library ε) (query : Query) :
    queryTrace library query =
        run (cancelledBefore query) (verdict library query) maxSubprocessRetries 0 ∨
      queryTrace library query = { made := [], result := none } := by
  unfold queryTrace
  cases query.cliPath with
  | error message => exact .inr rfl
  | ok path =>
      cases query.mcpConfig with
      | error message => exact .inr rfl
      | ok loaded => exact .inl rfl

/-! ## The decision -/

theorem shouldRetry_iff (message : String) (stderrLines : List String) (aborted : Bool) :
    (classifyAndEnrichError message stderrLines aborted).shouldRetry = true ↔
      aborted = false ∧
        (classifySubprocessError message (String.intercalate "\n" stderrLines) = .rateLimit ∨
          classifySubprocessError message (String.intercalate "\n" stderrLines) = .crash) := by
  cases aborted with
  | true =>
      rw [classifyAndEnrichError, if_pos rfl]
      split
      · simp
      · simp
  | false =>
      simp only [classifyAndEnrichError, Bool.false_eq_true, if_false]
      split
      · next auth => simp [auth]
      · simp

variable {attempt : Nat} {query : Query}

/-- An attempt calls for another one exactly if it fails, was not cancelled and its text
is classified as a rate limit or a crash. -/
theorem verdict_eq_again_iff :
    verdict library query attempt = .again ↔
      ∃ message,
        runSingleAttempt library query.timeoutMs (query.attempts attempt) = .failed message ∧
        (query.attempts attempt).cancelledAfter = false ∧
        (classifySubprocessError message "" = .rateLimit ∨
          classifySubprocessError message "" = .crash) := by
  have noLines : String.intercalate "\n" [] = "" := rfl
  unfold verdict
  cases runSingleAttempt library query.timeoutMs (query.attempts attempt) with
  | finished chunks => simp
  | panicked => simp
  | failed message =>
      have decision := shouldRetry_iff message [] (query.attempts attempt).cancelledAfter
      rw [noLines] at decision
      simp only [AttemptOutcome.failed.injEq, exists_eq_left']
      rw [← decision]
      split
      · next retry => simp [retry]
      · next stops => simp [stops]

theorem verdict_eq_done_iff {chunks : List MessageChunk} :
    verdict library query attempt = .done chunks ↔
      runSingleAttempt library query.timeoutMs (query.attempts attempt) = .finished chunks := by
  unfold verdict
  cases runSingleAttempt library query.timeoutMs (query.attempts attempt) with
  | finished other => simp
  | panicked => simp
  | failed message =>
      dsimp only
      split
      · simp
      · simp

/-! ## Runs -/

/-- After an attempt that was made, the next one is made exactly if the attempt calls for
it, a retry is left, and the query is not cancelled before it. -/
theorem next_mem_queryTrace_iff (made : attempt ∈ (queryTrace library query).made) :
    attempt + 1 ∈ (queryTrace library query).made ↔
      verdict library query attempt = .again ∧ attempt < maxSubprocessRetries ∧
        (query.attempts (attempt + 1)).cancelledBefore = false := by
  rcases queryTrace_eq_run_or library query with ran | none
  · rw [ran] at made ⊢
    rw [next_mem_made_iff made, Nat.zero_add]
    rfl
  · rw [none] at made
    cases made

/-- A query makes its attempts one after the other, at most one and the retries. Another
one follows only on an attempt that fails with a rate limit or a crash while the query is
not cancelled. What is delivered are the warnings and, whole, the chunks of the last
attempt, if that one succeeds. -/
theorem sendQuery_attempts (query : Query) :
    (queryTrace library query).made = List.range (queryTrace library query).made.length ∧
    (queryTrace library query).made.length ≤ 1 + maxSubprocessRetries ∧
    (∀ attempt, attempt ∈ (queryTrace library query).made →
      attempt + 1 ∈ (queryTrace library query).made →
        ∃ message,
          runSingleAttempt library query.timeoutMs (query.attempts attempt) = .failed message ∧
          (classifySubprocessError message "" = .rateLimit ∨
            classifySubprocessError message "" = .crash) ∧
          (query.attempts attempt).cancelledAfter = false ∧
          (query.attempts (attempt + 1)).cancelledBefore = false) ∧
    sendQuery library query =
      configWarnings query ++ (queryTrace library query).result.getD [] ∧
    ∀ chunks, (queryTrace library query).result = some chunks ↔
      ∃ last, (queryTrace library query).made.getLast? = some last ∧
        runSingleAttempt library query.timeoutMs (query.attempts last) = .finished chunks := by
  refine ⟨?_, ?_, ?_, sendQuery_eq_trace query, ?_⟩
  · rcases queryTrace_eq_run_or library query with ran | none
    · rw [ran, List.range_eq_range']
      exact made_eq_range maxSubprocessRetries 0
    · rw [none]
      rfl
  · rcases queryTrace_eq_run_or library query with ran | none
    · rw [ran]
      exact length_made_le maxSubprocessRetries 0
    · rw [none]
      exact Nat.zero_le _
  · intro attempt made next
    obtain ⟨again, -, running⟩ := (next_mem_queryTrace_iff made).mp next
    obtain ⟨message, failed, uncancelled, transient⟩ := verdict_eq_again_iff.mp again
    exact ⟨message, failed, transient, uncancelled, running⟩
  · intro chunks
    rcases queryTrace_eq_run_or library query with ran | none
    · rw [ran, result_eq_some_iff]
      apply exists_congr
      intro last
      rw [verdict_eq_done_iff]
    · simp [none]

end Claude

end HarnessAgent
