import HarnessAgent.Store.WorkflowRuns

/-! # The status of a run

What a client reads as the status of a run while other clients change it, and when the
updates that end a run go through.
-/

namespace HarnessAgent

def storedStatus (table : RunTable) (id : String) : Option WorkflowRunStatus :=
  (table.find id).map (·.status)

def getWorkflowRunStatus (call : DbCall) (table : RunTable) (id : String) :
    Except StoreError (Option WorkflowRunStatus) :=
  match call.failure with
  | some error => .error (.db ("Failed to get workflow run status: " ++ error))
  | none => .ok (storedStatus table id)

section

variable {Client : Type} {dialect : Dialect} {id : String}

theorem storedStatus_step {table : RunTable} {request : RunRequest Client}
    (other : request.operation ≠ .resume id)
    (stopped : storedStatus table id ≠ some .running) :
    storedStatus (RunHistory.step dialect table request) id ≠ some .running := by
  rw [storedStatus, RunHistory.find_step]
  cases found : table.find id with
  | none => simp
  | some row =>
      have status : row.status ≠ .running := by simpa [storedStatus, found] using stopped
      have same : row.id = id := (Table.find_eq_some.mp found).2
      simp only [Option.map_some, ne_eq, Option.some.injEq]
      rcases RunHistory.effect_cases dialect request row with unchanged | ⟨-, -, target⟩
      · rw [unchanged]
        exact status
      · rw [target]
        cases operation : request.operation with
        | resume resumed =>
            -- A resumption of another run leaves this one as it is.
            have different : row.id ≠ resumed := by
              intro equal
              rw [operation, ← equal, same] at other
              exact other rfl
            have unchanged : RunHistory.effect dialect request row = row := by
              rw [RunHistory.effect]
              cases request.call.failure with
              | some error => rfl
              | none =>
                  simp [operation, RunOperation.update, RowUpdate.apply,
                    SqlWorkflowStore.resumeUpdate, different]
            rw [unchanged, operation] at target
            exact absurd target status
        | complete | fail | pause | cancel | failOrphaned => simp [RunOperation.target]

theorem storedStatus_run {requests : List (RunRequest Client)}
    (others : ∀ request ∈ requests, request.operation ≠ .resume id)
    (stopped : storedStatus table id ≠ some .running) :
    storedStatus (RunHistory.run dialect table requests) id ≠ some .running := by
  induction requests generalizing table with
  | nil => exact stopped
  | cons request rest later =>
      apply later
      · intro request member
        exact others request (List.mem_cons_of_mem _ member)
      · exact storedStatus_step (others request List.mem_cons_self) stopped

end

namespace SqlWorkflowStore

variable {call : DbCall} {id : String} {table : RunTable}

theorem requireRunning_query_iff {failed : String}
    (guards : ∀ row, update.guard row = true ↔ row.id = id ∧ row.status = .running) :
    requireRunning failed id (query call table update).2 = .ok () ↔
      call.failure = none ∧ storedStatus table id = some .running := by
  rw [query]
  cases call.failure with
  | some error => simp [requireRunning]
  | none =>
      have positive : 0 < table.affected update ↔ storedStatus table id = some .running := by
        rw [Table.affected_pos, storedStatus]
        constructor
        · rintro ⟨row, member, holds⟩
          rcases (guards row).mp holds with ⟨same, running⟩
          rw [Table.find_eq_some.mpr ⟨member, same⟩, Option.map_some, running]
        · intro running
          rcases Option.map_eq_some_iff.mp running with ⟨row, found, status⟩
          rcases Table.find_eq_some.mp found with ⟨member, same⟩
          exact ⟨row, member, (guards row).mpr ⟨same, status⟩⟩
      rw [← positive]
      cases table.affected update with
      | zero => simp [requireRunning]
      | succ count => simp [requireRunning]

theorem storedStatus_query (answered : call.failure = none)
    (running : storedStatus table id = some .running)
    (guards : ∀ row, update.guard row = true ↔ row.id = id ∧ row.status = .running)
    (sets : ∀ row, (update.set row).status = status) :
    storedStatus (query call table update).1 id = some status := by
  rcases Option.map_eq_some_iff.mp running with ⟨row, found, isRunning⟩
  have holds : update.guard row = true := (guards row).mpr ⟨(Table.find_eq_some.mp found).2, isRunning⟩
  rw [query, answered, storedStatus]
  dsimp only
  rw [Table.find_update, found, Option.map_some, RowUpdate.apply, if_pos holds, Option.map_some,
    sets]

theorem completeWorkflowRun_ok_iff {dialect : Dialect} {metadata : Option Members} :
    (completeWorkflowRun dialect call table id metadata).2 = .ok () ↔
      call.failure = none ∧ storedStatus table id = some .running :=
  requireRunning_query_iff fun row => by simp [completeUpdate]

theorem failWorkflowRun_ok_iff {dialect : Dialect} {errorMsg : String} :
    (failWorkflowRun dialect call table id errorMsg).2 = .ok () ↔
      call.failure = none ∧ storedStatus table id = some .running :=
  requireRunning_query_iff fun row => by simp [failUpdate]

end SqlWorkflowStore

end HarnessAgent
