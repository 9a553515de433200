import HarnessAgent.Foundation.Table
import HarnessAgent.Store.Dialect

/-! # Stored workflow runs

The table of runs and the operations that move a run from one status to
another. Each operation is one conditional update of the table, so a history of
any number of clients is the sequence of their updates in the order in which
the database executes them.
-/

namespace HarnessAgent

/-- A row of the table of runs. A missing metadata column is SQL's null. -/
structure RunRow where
  id : String
  workflowName : String := ""
  conversationId : String := ""
  parentConversationId : Option String := none
  codebaseId : Option String := none
  status : WorkflowRunStatus
  userMessage : String := ""
  metadata : Option Value := some (.object [])
  startedAt : Instant
  completedAt : Option Instant := none
  lastActivityAt : Option Instant := none
  workingPath : Option String := none
  userId : Option String := none
  deriving DecidableEq, Repr

abbrev RunTable := Table RunRow.id

def normalizeRowToRun (row : RunRow) : WorkflowRun where
  id := row.id
  workflowName := row.workflowName
  conversationId := row.conversationId
  parentConversationId := row.parentConversationId
  codebaseId := row.codebaseId
  status := row.status
  userMessage := row.userMessage
  metadata := ((row.metadata.bind Value.asObject).getD [])
  startedAt := row.startedAt
  completedAt := row.completedAt
  lastActivityAt := row.lastActivityAt
  workingPath := row.workingPath
  userId := row.userId

inductive StoreError
  | db (message : String)
  deriving DecidableEq, Repr

/-- The circumstances of one statement: the clock of the database, and the
error text if the database refuses it. -/
structure DbCall where
  clock : Instant
  failure : Option String := none
  deriving DecidableEq, Repr

namespace SqlWorkflowStore

def orphanResumeStaleDays : Nat := 1

def query (call : DbCall) (table : RunTable) (update : RowUpdate RunRow.id) :
    RunTable × Except String Nat :=
  match call.failure with
  | some error => (table, .error error)
  | none => (table.update update, .ok (table.affected update))

/-! ## The updates -/

section Updates

variable (dialect : Dialect) (clock : Instant)

def completeUpdate (id : String) (metadata : Option Members) : RowUpdate RunRow.id where
  guard row := row.id = id ∧ row.status = .running
  set row :=
    { row with
      status := .completed
      completedAt := some (dialect.now clock)
      metadata :=
        match metadata with
        | some members => dialect.jsonMerge row.metadata (.object members)
        | none => row.metadata }
  keepsKey _ := rfl

def failUpdate (id errorMsg : String) : RowUpdate RunRow.id where
  guard row := row.id = id ∧ row.status = .running
  set row :=
    { row with
      status := .failed
      completedAt := some (dialect.now clock)
      metadata := dialect.jsonMerge row.metadata (.object [("error", .string errorMsg)]) }
  keepsKey _ := rfl

def pauseUpdate (id : String) (approvalContext : ApprovalContext) :
    RowUpdate RunRow.id where
  guard row := row.id = id ∧ row.status = .running
  set row :=
    { row with
      status := .paused
      metadata :=
        dialect.jsonMerge row.metadata (.object [("approval", approvalContext.toValue)]) }
  keepsKey _ := rfl

def cancelUpdate (id : String) : RowUpdate RunRow.id where
  guard row := row.id = id ∧ row.status ≠ .completed ∧ row.status ≠ .cancelled
  set row :=
    { row with
      status := .cancelled
      completedAt := some (dialect.now clock) }
  keepsKey _ := rfl

def resumableStatusClause (row : RunRow) : Bool :=
  row.status = .failed ∨ row.status = .paused ∨
    (row.status = .running ∧ row.lastActivityAt.all fun activity =>
      decide (activity < dialect.nowMinusDays clock orphanResumeStaleDays))

def resumeUpdate (id : String) : RowUpdate RunRow.id where
  guard row := row.id = id ∧ resumableStatusClause dialect clock row
  set row :=
    { row with
      status := .running
      completedAt := none
      startedAt := dialect.now clock
      lastActivityAt := some (dialect.now clock) }
  keepsKey _ := rfl

def failOrphanedUpdate : RowUpdate RunRow.id where
  guard row := row.status = .running
  set row :=
    { row with
      status := .failed
      completedAt := some (dialect.now clock)
      metadata :=
        dialect.jsonMerge row.metadata
          (.object [("failure_reason", .string "server_restart")]) }
  keepsKey _ := rfl

end Updates

/-! ## The operations -/

section Operations

variable (dialect : Dialect) (call : DbCall) (table : RunTable)

def requireRunning (failed id : String) : Except String Nat → Except StoreError Unit
  | .ok 0 => .error (.db ("Workflow run not found or not in running state (id: " ++ id ++ ")"))
  | .ok _ => .ok ()
  | .error error => .error (.db (failed ++ error))

def completeWorkflowRun (id : String) (metadata : Option Members) :
    RunTable × Except StoreError Unit :=
  let outcome := query call table (completeUpdate dialect call.clock id metadata)
  (outcome.1, requireRunning "Failed to complete workflow run: " id outcome.2)

def failWorkflowRun (id errorMsg : String) : RunTable × Except StoreError Unit :=
  let outcome := query call table (failUpdate dialect call.clock id errorMsg)
  (outcome.1, requireRunning "Failed to fail workflow run: " id outcome.2)

/-- A pause hands a database error that already names the missing run through
unchanged. -/
def pauseWorkflowRun (id : String) (approvalContext : ApprovalContext) :
    RunTable × Except StoreError Unit :=
  let outcome := query call table (pauseUpdate dialect id approvalContext)
  (outcome.1,
    match outcome.2 with
    | .error error =>
        if error.startsWith "Workflow run not found" then .error (.db error)
        else requireRunning "Failed to pause workflow run: " id (.error error)
    | .ok count => requireRunning "Failed to pause workflow run: " id (.ok count))

def reportCount (failed : String) : Except String Nat → Except StoreError Nat
  | .ok count => .ok count
  | .error error => .error (.db (failed ++ error))

def cancelWorkflowRun (id : String) : RunTable × Except StoreError Bool :=
  let outcome := query call table (cancelUpdate dialect call.clock id)
  (outcome.1, (reportCount "Failed to cancel workflow run: " outcome.2).map (0 < ·))

def failOrphanedRuns : RunTable × Except StoreError Nat :=
  let outcome := query call table (failOrphanedUpdate dialect call.clock)
  (outcome.1, reportCount "Failed to fail orphaned workflow runs: " outcome.2)

def resumeCasMissProbe (id : String) : Except StoreError WorkflowRun :=
  match call.failure with
  | some error => .error (.db ("Failed to resume workflow run: " ++ error))
  | none =>
      match table.find id with
      | none => .error (.db ("Workflow run not found (id: " ++ id ++ ")"))
      | some row =>
          .error (.db ("WorkflowNotResumableError(run_id=" ++ id ++ ", current_status=" ++
            statusToStr row.status ++ ")"))

def resumeSelect (id : String) : Except StoreError WorkflowRun :=
  match call.failure with
  | some error => .error (.db ("Failed to read workflow run after update: " ++ error))
  | none =>
      match table.find id with
      | none => .error (.db ("Workflow run vanished after update (id: " ++ id ++ ")"))
      | some row => .ok (normalizeRowToRun row)

def resumeWorkflowRun (id : String) : RunTable × Except StoreError Nat :=
  let outcome := query call table (resumeUpdate dialect call.clock id)
  (outcome.1, reportCount "Failed to resume workflow run: " outcome.2)

/-- The second half of a resume, a read that updates of other clients may
precede. -/
def resumeWorkflowRunRead (id : String) : Except StoreError Nat → Except StoreError WorkflowRun
  | .ok 0 => resumeCasMissProbe call table id
  | .ok _ => resumeSelect call table id
  | .error error => .error error

end Operations

end SqlWorkflowStore

/-! ## Histories of concurrent clients -/

inductive RunOperation
  | complete (id : String) (metadata : Option Members)
  | fail (id errorMsg : String)
  | pause (id : String) (approvalContext : ApprovalContext)
  | cancel (id : String)
  | resume (id : String)
  | failOrphaned
  deriving DecidableEq, Repr

namespace RunOperation

open SqlWorkflowStore in
def update (dialect : Dialect) (clock : Instant) : RunOperation → RowUpdate RunRow.id
  | .complete id metadata => completeUpdate dialect clock id metadata
  | .fail id errorMsg => failUpdate dialect clock id errorMsg
  | .pause id approvalContext => pauseUpdate dialect id approvalContext
  | .cancel id => cancelUpdate dialect clock id
  | .resume id => resumeUpdate dialect clock id
  | .failOrphaned => failOrphanedUpdate dialect clock

def sources : RunOperation → List WorkflowRunStatus
  | .complete .. => [.running]
  | .fail .. => [.running]
  | .pause .. => [.running]
  | .cancel _ => [.pending, .running, .paused, .failed]
  | .resume _ => [.failed, .paused]
  | .failOrphaned => [.running]

def target : RunOperation → WorkflowRunStatus
  | .complete .. => .completed
  | .fail .. => .failed
  | .pause .. => .paused
  | .cancel _ => .cancelled
  | .resume _ => .running
  | .failOrphaned => .failed

end RunOperation

structure RunRequest (Client : Type) where
  client : Client
  operation : RunOperation
  call : DbCall

def WorkflowRunStatus.Finished (status : WorkflowRunStatus) : Prop :=
  status = .completed ∨ status = .cancelled

namespace RunHistory

section Step

variable {Client : Type} (dialect : Dialect)

open SqlWorkflowStore in
def step (table : RunTable) (request : RunRequest Client) : RunTable :=
  match request.operation with
  | .complete id metadata => (completeWorkflowRun dialect request.call table id metadata).1
  | .fail id errorMsg => (failWorkflowRun dialect request.call table id errorMsg).1
  | .pause id approvalContext =>
      (pauseWorkflowRun dialect request.call table id approvalContext).1
  | .cancel id => (cancelWorkflowRun dialect request.call table id).1
  | .resume id => (resumeWorkflowRun dialect request.call table id).1
  | .failOrphaned => (failOrphanedRuns dialect request.call table).1

def run (table : RunTable) (requests : List (RunRequest Client)) : RunTable :=
  requests.foldl (step dialect) table

open SqlWorkflowStore in
theorem step_eq_query (table : RunTable) (request : RunRequest Client) :
    step dialect table request =
      (query request.call table (request.operation.update dialect request.call.clock)).1 := by
  unfold step
  cases request.operation <;> rfl

def effect (request : RunRequest Client) (row : RunRow) : RunRow :=
  match request.call.failure with
  | some _ => row
  | none => (request.operation.update dialect request.call.clock).apply row

theorem find_step (table : RunTable) (request : RunRequest Client) (id : String) :
    (step dialect table request).find id = (table.find id).map (effect dialect request) := by
  rw [step_eq_query, SqlWorkflowStore.query]
  unfold effect
  cases request.call.failure with
  | some error => simp
  | none => exact table.find_update _ id

end Step

/-! ## Transitions

A request either leaves a row as it is or moves it from one of the sources of
its operation to the target, and no guard admits a finished run. -/

section Transitions

variable {Client : Type} (dialect : Dialect)

theorem status_of_guard (clock : Instant) (operation : RunOperation)
    (holds : (operation.update dialect clock).guard row = true) :
    (row.status ∈ operation.sources ∨ row.status = operation.target) ∧
      ¬ row.status.Finished ∧
      ((operation.update dialect clock).set row).status = operation.target := by
  cases operation <;> revert holds <;> cases status : row.status <;>
    simp [RunOperation.update, RunOperation.sources, RunOperation.target,
      SqlWorkflowStore.completeUpdate, SqlWorkflowStore.failUpdate,
      SqlWorkflowStore.pauseUpdate, SqlWorkflowStore.cancelUpdate,
      SqlWorkflowStore.resumeUpdate, SqlWorkflowStore.failOrphanedUpdate,
      SqlWorkflowStore.resumableStatusClause, WorkflowRunStatus.Finished, status]

theorem effect_cases (request : RunRequest Client) (row : RunRow) :
    effect dialect request row = row ∨
      (row.status ∈ request.operation.sources ∨ row.status = request.operation.target) ∧
        ¬ row.status.Finished ∧
        (effect dialect request row).status = request.operation.target := by
  unfold effect
  cases request.call.failure with
  | some error => exact .inl rfl
  | none =>
      by_cases holds :
          (request.operation.update dialect request.call.clock).guard row = true
      · right
        simp only [RowUpdate.apply, holds, if_true]
        exact status_of_guard dialect request.call.clock request.operation holds
      · left
        simp only [RowUpdate.apply, holds, if_false, Bool.false_eq_true]

theorem effect_of_finished (request : RunRequest Client) (finished : row.status.Finished) :
    effect dialect request row = row := by
  rcases effect_cases dialect request row with same | ⟨_, unfinished, _⟩
  · exact same
  · exact absurd finished unfinished

variable {table : RunTable}

theorem find_run_of_finished (requests : List (RunRequest Client)) {id : String}
    (found : table.find id = some row) (finished : row.status.Finished) :
    (run dialect table requests).find id = some row := by
  induction requests generalizing table with
  | nil => exact found
  | cons request rest induction =>
      refine induction ?_
      rw [find_step, found, Option.map_some, effect_of_finished dialect request finished]

def PreciseStarts (table : RunTable) : Prop :=
  ∀ row ∈ table.rows, dialect.timestamp row.startedAt = row.startedAt

theorem preciseStarts_step (precise : PreciseStarts dialect table) (request : RunRequest Client) :
    PreciseStarts dialect (step dialect table request) := by
  rw [step_eq_query, SqlWorkflowStore.query]
  cases request.call.failure with
  | some error => exact precise
  | none =>
      intro row member
      rcases List.mem_map.mp member with ⟨before, stored, rfl⟩
      refine RowUpdate.apply_rule (precise before stored)
        (motive := fun row : RunRow => dialect.timestamp row.startedAt = row.startedAt) fun _ => ?_
      cases request.operation with
      | resume id => exact dialect.timestamp_timestamp _
      | complete | fail | pause | cancel | failOrphaned => exact precise before stored

theorem preciseStarts_run (precise : PreciseStarts dialect table)
    (requests : List (RunRequest Client)) : PreciseStarts dialect (run dialect table requests) := by
  induction requests generalizing table with
  | nil => exact precise
  | cons request rest induction => exact induction (preciseStarts_step dialect precise request)

theorem run_append (table : RunTable) (earlier later : List (RunRequest Client)) :
    run dialect table (earlier ++ later) = run dialect (run dialect table earlier) later :=
  List.foldl_append

end Transitions

end RunHistory

open RunHistory in
/-- In every history a finished run keeps its row, and every change of status
goes from a source of the executed operation to its target. -/
theorem workflowRun_statusChanges {Client : Type} (dialect : Dialect) (table : RunTable)
    (requests : List (RunRequest Client)) (id : String) :
    (∀ earlier later, requests = earlier ++ later →
      ∀ row, (run dialect table earlier).find id = some row → row.status.Finished →
        (run dialect table requests).find id = some row) ∧
    (∀ earlier request later, requests = earlier ++ request :: later →
      ∀ before, (run dialect table earlier).find id = some before →
        ∃ after, (run dialect table (earlier ++ [request])).find id = some after ∧
          (after.status ≠ before.status →
            before.status ∈ request.operation.sources ∧
            before.status ∈
              [WorkflowRunStatus.pending, .running, .paused, .failed] ∧
            after.status = request.operation.target)) := by
  constructor
  · rintro earlier later rfl row found finished
    rw [run_append]
    exact find_run_of_finished dialect later found finished
  · rintro earlier request later rfl before found
    refine ⟨effect dialect request before, ?_, fun changed => ?_⟩
    · rw [run_append]
      change (step dialect (run dialect table earlier) request).find id = _
      rw [find_step, found, Option.map_some]
    · rcases effect_cases dialect request before with same | ⟨allowed, unfinished, target⟩
      · exact absurd (congrArg RunRow.status same) changed
      · rcases allowed with source | already
        · refine ⟨source, ?_, target⟩
          cases status : before.status <;> simp_all [WorkflowRunStatus.Finished]
        · exact absurd (target.trans already.symm) changed

namespace RunHistory

def race : List (RunRequest Nat) :=
  [{ client := 1, operation := .complete "r" none, call := { clock := 5000000 } },
    { client := 2, operation := .resume "r", call := { clock := 90000000000 } },
    { client := 2, operation := .failOrphaned, call := { clock := 90000000000 } }]

def raceTable : RunTable where
  rows := [{ id := "r", status := .running, startedAt := 0 }]
  distinct := by decide

end RunHistory

open RunHistory in
theorem workflowRun_statusChanges_race :
    ∃ row : RunRow, row.status = .completed ∧
      (run .sqlite raceTable (race.take 1)).find "r" = some row ∧
      (run .sqlite raceTable race).find "r" = some row := by
  refine ⟨{ id := "r", status := .completed, startedAt := 0, completedAt := some 5000000 },
    rfl, by decide, ?_⟩
  exact (workflowRun_statusChanges .sqlite raceTable race "r").1 (race.take 1) (race.drop 1)
    rfl _ (by decide) (.inl rfl)

end HarnessAgent
