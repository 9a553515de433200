import HarnessAgent.Foundation.EventRun
import HarnessAgent.Foundation.SqlRows
import HarnessAgent.Store.ParameterTypes

/-! # Statements of sessions

The statements for the table of sessions are written, and keep the sessions as a map where
the database executes them; the store does not use them.
-/

namespace HarnessAgent

namespace NodeSessions

open SqlRows

def sessionColumns : List String :=
  ["workflow_name", "node_id", "scope_key", "provider", "provider_session_id", "last_run_id",
    "created_at", "updated_at"]

/-! ## The statements and their parameters -/

def upsertWorkflowNodeSessionSql : Upsert where
  columns := sessionColumns
  placeholders := (List.range sessionColumns.length).map (· + 1)
  target := ["workflow_name", "node_id", "scope_key", "provider"]
  assigned := sessionColumns

def upsertWorkflowNodeSessionParams (session : WorkflowNodeSession) : List Value :=
  [.string session.workflowName, .string session.nodeId, .string session.scopeKey,
    .string session.provider, .string session.providerSessionId,
    (session.lastRunId.map Value.string).getD .null, .string session.createdAt,
    .string session.updatedAt]

def keyCondition : Condition :=
  [("workflow_name", 1), ("node_id", 2), ("scope_key", 3), ("provider", 4)]

abbrev deleteWorkflowNodeSessionsSql : Condition := keyCondition

abbrev getWorkflowNodeSessionSql : Condition := keyCondition

def keyParams (key : WorkflowNodeSessionKey) : List Value :=
  [.string key.workflowName, .string key.nodeId, .string key.scopeKey, .string key.provider]

abbrev deleteWorkflowNodeSessionParams : WorkflowNodeSessionKey → List Value := keyParams

abbrev getWorkflowNodeSessionParams : WorkflowNodeSessionKey → List Value := keyParams

def normalizeSessionRow (row : Members) : Option WorkflowNodeSession := do
  let workflowName ← row.getStr "workflow_name"
  let nodeId ← row.getStr "node_id"
  let scopeKey ← row.getStr "scope_key"
  let provider ← row.getStr "provider"
  let providerSessionId ← row.getStr "provider_session_id"
  let createdAt ← row.getStr "created_at"
  let updatedAt ← row.getStr "updated_at"
  pure {
    workflowName, nodeId, scopeKey, provider, providerSessionId
    lastRunId := row.getStr "last_run_id"
    createdAt, updatedAt }

/-! ## The database -/

inductive Statement
  | upsert (session : WorkflowNodeSession)
  | delete (key : WorkflowNodeSessionKey)

def Statement.parameters : Statement → Postgres.Statement
  | .upsert session => Postgres.Operation.upsertSession session
  | .delete key => Postgres.Operation.bySessionKey key

structure Executes (database : SqlDatabase) (call : DbCall) (statement : Postgres.Statement) :
    Prop where
  answered : call.failure = none
  typed : database.dialect = .postgres → Postgres.TypeChecks database.uuids statement

instance (database : SqlDatabase) (call : DbCall) (statement : Postgres.Statement) :
    Decidable (Executes database call statement) :=
  decidable_of_iff
    (call.failure = none ∧
      (database.dialect = .postgres → ∀ bound ∈ statement, ∀ place ∈ bound.places,
        place.accepts (Postgres.buildArg database.uuids bound.value).type = true))
    ⟨fun both => ⟨both.1, both.2⟩, fun executes => ⟨executes.answered, executes.typed⟩⟩

def storedParam (database : SqlDatabase) : Value → Value
  | .string text => .string ((database.comparedText text).getD text)
  | value => value

def Statement.apply (database : SqlDatabase) (rows : List Row) : Statement → List Row
  | .upsert session =>
      upsertWorkflowNodeSessionSql.execute
        ((upsertWorkflowNodeSessionParams session).map (storedParam database)) rows
  | .delete key =>
      rows.filter fun row =>
        !deleteWorkflowNodeSessionsSql.holds
          ((deleteWorkflowNodeSessionParams key).map (storedParam database)) row

def execute (database : SqlDatabase) (rows : List Row) : DbCall × Statement → List Row
  | (call, statement) =>
      if Executes database call statement.parameters then statement.apply database rows
      else rows

def selectSession (database : SqlDatabase) (rows : List Row) (key : WorkflowNodeSessionKey) :
    Option WorkflowNodeSession :=
  let params := (getWorkflowNodeSessionParams key).map (storedParam database)
  (rows.find? (getWorkflowNodeSessionSql.holds params)).bind fun row =>
    normalizeSessionRow (sessionColumns.map fun column => (column, (row.get column).getD .null))

/-! ## What the statements are for -/

def Statement.effect (key : WorkflowNodeSessionKey) (before : Option WorkflowNodeSession) :
    Statement → Option WorkflowNodeSession
  | .upsert session => if session.key = key then some session else before
  | .delete removed => if removed = key then none else before

def lastUpserted (statements : List Statement) (key : WorkflowNodeSessionKey) :
    Option WorkflowNodeSession :=
  statements.foldl (Statement.effect key) none

def executed (database : SqlDatabase) (statements : List (DbCall × Statement)) :
    List Statement :=
  (statements.filter fun entry =>
    decide (Executes database entry.1 entry.2.parameters)).map Prod.snd

/-! ## Rows of sessions -/

def sessionRow (session : WorkflowNodeSession) : Row :=
  sessionColumns.zip (upsertWorkflowNodeSessionParams session)

theorem normalizeSessionRow_sessionRow (session : WorkflowNodeSession) :
    normalizeSessionRow
        (sessionColumns.map fun column => (column, ((sessionRow session).get column).getD .null)) =
      some session := by
  rcases session with ⟨workflowName, nodeId, scopeKey, provider, providerSessionId, lastRunId,
    createdAt, updatedAt⟩
  cases lastRunId with
  | none => rfl
  | some runId => rfl

theorem excluded_eq (session : WorkflowNodeSession) :
    upsertWorkflowNodeSessionSql.excluded (upsertWorkflowNodeSessionParams session) =
      sessionRow session := by
  rfl

theorem assign_sessionRow (session other : WorkflowNodeSession) :
    upsertWorkflowNodeSessionSql.assign (sessionRow session) (sessionRow other) =
      sessionRow session := by
  rcases session with ⟨workflowName, nodeId, scopeKey, provider, providerSessionId, lastRunId,
    createdAt, updatedAt⟩
  rfl

theorem key_eq_iff (session : WorkflowNodeSession) (key : WorkflowNodeSessionKey) :
    session.key = key ↔ session.workflowName = key.workflowName ∧ session.nodeId = key.nodeId ∧
      session.scopeKey = key.scopeKey ∧ session.provider = key.provider := by
  rcases key with ⟨workflowName, nodeId, scopeKey, provider⟩
  exact WorkflowNodeSessionKey.mk.injEq .. ▸ Iff.rfl

theorem conflicts_sessionRow (session other : WorkflowNodeSession) :
    upsertWorkflowNodeSessionSql.conflicts (sessionRow session) (sessionRow other) =
      decide (other.key = session.key) := by
  have columns : upsertWorkflowNodeSessionSql.conflicts (sessionRow session) (sessionRow other) =
      (decide (some (Value.string other.workflowName) = some (.string session.workflowName)) &&
        (decide (some (Value.string other.nodeId) = some (.string session.nodeId)) &&
          (decide (some (Value.string other.scopeKey) = some (.string session.scopeKey)) &&
            (decide (some (Value.string other.provider) = some (.string session.provider)) &&
              true)))) := rfl
  rw [columns, Bool.eq_iff_iff, decide_eq_true_iff, key_eq_iff]
  simp [WorkflowNodeSession.key, WorkflowNodeSession.params, UpsertNodeSessionParams.key]

theorem holds_sessionRow (key : WorkflowNodeSessionKey) (session : WorkflowNodeSession) :
    keyCondition.holds (keyParams key) (sessionRow session) = decide (session.key = key) := by
  have columns : keyCondition.holds (keyParams key) (sessionRow session) =
      (decide (some (Value.string session.workflowName) = some (.string key.workflowName)) &&
        (decide (some (Value.string session.nodeId) = some (.string key.nodeId)) &&
          (decide (some (Value.string session.scopeKey) = some (.string key.scopeKey)) &&
            (decide (some (Value.string session.provider) = some (.string key.provider)) &&
              true)))) := rfl
  rw [columns, Bool.eq_iff_iff, decide_eq_true_iff, key_eq_iff]
  simp

/-! ## Sessions in SQLite -/

def Statement.keep (sessions : List WorkflowNodeSession) :
    Statement → List WorkflowNodeSession
  | .upsert session => put WorkflowNodeSession.key session sessions
  | .delete removed => sessions.filter fun session => session.key ≠ removed

theorem find?_keep (statement : Statement) (sessions : List WorkflowNodeSession)
    (key : WorkflowNodeSessionKey) :
    (statement.keep sessions).find? (fun session => session.key = key) =
      statement.effect key (sessions.find? fun session => session.key = key) := by
  cases statement with
  | upsert session => exact find?_put WorkflowNodeSession.key session sessions key
  | delete removed => exact find?_remove WorkflowNodeSession.key removed key sessions

section

variable {database : SqlDatabase} (sqlite : database.dialect = .sqlite)

include sqlite

theorem map_storedParam (params : List Value) : params.map (storedParam database) = params := by
  have same : storedParam database = id := by
    funext value
    cases value with
    | string text =>
        rw [storedParam, SqlDatabase.comparedText, sqlite]
        rfl
    | null | bool | number | array | object => rfl
  rw [same, List.map_id]

theorem apply_map_sessionRow (statement : Statement) (sessions : List WorkflowNodeSession) :
    statement.apply database (sessions.map sessionRow) =
      (statement.keep sessions).map sessionRow := by
  cases statement with
  | upsert session =>
      rw [Statement.apply, map_storedParam sqlite]
      exact execute_map_encode conflicts_sessionRow assign_sessionRow (excluded_eq session) sessions
  | delete removed =>
      rw [Statement.apply, map_storedParam sqlite, List.filter_map, Statement.keep]
      congr 2
      funext session
      rw [Function.comp_apply, holds_sessionRow, decide_not]

theorem selectSession_map_sessionRow (sessions : List WorkflowNodeSession)
    (key : WorkflowNodeSessionKey) :
    selectSession database (sessions.map sessionRow) key =
      sessions.find? fun session => session.key = key := by
  have matching : keyCondition.holds (keyParams key) ∘ sessionRow =
      fun session => decide (session.key = key) := by
    funext session
    exact holds_sessionRow key session
  dsimp only [selectSession]
  rw [map_storedParam sqlite, List.find?_map, matching]
  cases sessions.find? fun session => decide (session.key = key) with
  | none => rfl
  | some session => exact normalizeSessionRow_sessionRow session

theorem selectSession_run (statements : List (DbCall × Statement))
    (sessions : List WorkflowNodeSession) (key : WorkflowNodeSessionKey) :
    selectSession database (EventRun.run (execute database) (sessions.map sessionRow) statements)
        key =
      (executed database statements).foldl (Statement.effect key)
        (sessions.find? fun session => session.key = key) := by
  induction statements generalizing sessions with
  | nil => exact selectSession_map_sessionRow sqlite sessions key
  | cons entry rest induction =>
      rw [EventRun.run, List.foldl_cons, ← EventRun.run, execute, executed, List.filter_cons]
      by_cases executes : Executes database entry.1 entry.2.parameters
      · rw [if_pos executes, if_pos (decide_eq_true executes), apply_map_sessionRow sqlite,
          induction, find?_keep]
        rfl
      · rw [if_neg executes, if_neg (by simpa using executes), induction]
        rfl

end

/-! ## Sessions in Postgres -/

theorem not_executes_upsert (postgres : database.dialect = .postgres) (call : DbCall)
    (session : WorkflowNodeSession) :
    ¬Executes database call (Statement.upsert session).parameters := by
  intro executes
  have typed := executes.typed postgres
  have fits : (Postgres.inserted Postgres.NodeSessionsTable.createdAt
      (.string session.createdAt)).Fits _ :=
    typed _ (by simp [Statement.parameters, Postgres.Operation.upsertSession])
  exact Postgres.not_fits_inserted _ (.inr rfl) fits

theorem run_postgres (postgres : database.dialect = .postgres)
    (statements : List (DbCall × Statement)) :
    EventRun.run (execute database) [] statements = [] := by
  have keeps : ∀ (rows : List Row) (entry : DbCall × Statement), rows = [] → True →
      execute database rows entry = [] := by
    intro rows entry empty _
    subst empty
    rw [execute]
    split
    next executes =>
      rcases entry with ⟨call, upsert | delete⟩
      · exact absurd executes (not_executes_upsert postgres call _)
      · rfl
    next => rfl
  exact EventRun.run_keeps keeps rfl fun _ _ => trivial

theorem lastUpserted_postgres (postgres : database.dialect = .postgres)
    (statements : List (DbCall × Statement)) (key : WorkflowNodeSessionKey) :
    lastUpserted (executed database statements) key = none := by
  rw [lastUpserted]
  have deletes : ∀ statement ∈ executed database statements, ∃ removed,
      statement = .delete removed := by
    intro statement member
    rcases List.mem_map.mp member with ⟨entry, listed, rfl⟩
    have executes := of_decide_eq_true (List.mem_filter.mp listed).2
    rcases entry with ⟨call, upsert | removed⟩
    · exact absurd executes (not_executes_upsert postgres call _)
    · exact ⟨removed, rfl⟩
  generalize executed database statements = listed at deletes
  induction listed with
  | nil => rfl
  | cons statement rest induction =>
      rcases List.forall_mem_cons.mp deletes with ⟨⟨removed, rfl⟩, others⟩
      rw [List.foldl_cons, Statement.effect, ite_self]
      exact induction others

/-- The statements keep the sessions as a map: a selection gives what the executed statements
have upserted last under the key and not deleted since. Postgres executes no upsert, so
nothing is ever stored there. -/
theorem selectSession_eq_lastUpserted (database : SqlDatabase)
    (statements : List (DbCall × Statement)) (key : WorkflowNodeSessionKey) :
    selectSession database (EventRun.run (execute database) [] statements) key =
        lastUpserted (executed database statements) key ∧
      (database.dialect = .postgres → EventRun.run (execute database) [] statements = []) := by
  refine ⟨?_, fun postgres => run_postgres postgres statements⟩
  cases dialect : database.dialect with
  | sqlite => exact selectSession_run dialect statements [] key
  | postgres =>
      rw [run_postgres dialect, lastUpserted_postgres dialect]
      rfl

end NodeSessions

end HarnessAgent
