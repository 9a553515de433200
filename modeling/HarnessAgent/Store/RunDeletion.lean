import HarnessAgent.Foundation.EventRun
import HarnessAgent.Foundation.StatefulRun
import HarnessAgent.Store.WorkflowEvents

/-! # Deleting runs

Runs are deleted together with their events, in one transaction. The database does not
enforce that events refer to stored runs, so the statements of the transaction have to
agree on what they delete.
-/

namespace HarnessAgent

structure RunDatabase where
  runs : RunTable
  events : EventTable

namespace RunDeletion

inductive DbError
  | rowNotFound
  | other (message : String)
  deriving DecidableEq, Repr

def DbError.message : DbError → String
  | .rowNotFound =>
      "db query failed: no rows returned by a query that expected to return at least one row"
  | .other message => message

/-- The circumstances of a transaction: the clock at its BEGIN, and the errors of getting so
far and of its COMMIT. -/
structure TransactionCall where
  clock : Instant
  opening : Option String := none
  commit : Option String := none
  deriving DecidableEq, Repr

/-- A transaction is rolled back if its closure or its COMMIT fails. -/
def withTransaction {α : Type} (call : TransactionCall)
    (closure : StatefulRun DbError RunDatabase α) (database : RunDatabase) :
    RunDatabase × Except DbError α :=
  match call.opening with
  | some error => (database, .error (.other error))
  | none =>
      match closure.run database with
      | .error error _ => (database, .error error)
      | .ok value changed =>
          match call.commit with
          | some error => (database, .error (.other error))
          | none => (changed, .ok value)

/-! ## The statements -/

def deleteEvents (failure : Option String) (guard : RunDatabase → EventRow → Bool) :
    StatefulRun DbError RunDatabase Unit where
  run database :=
    match failure with
    | some error => .error (.other error) database
    | none =>
        .ok () { database with events := database.events.filter fun row => !guard database row }

def deleteRuns (failure : Option String) (guard : RunRow → Bool) :
    StatefulRun DbError RunDatabase Nat where
  run database :=
    match failure with
    | some error => .error (.other error) database
    | none =>
        .ok (database.runs.rows.countP guard)
          { database with runs := database.runs.deleteWhere guard }

def selectStatus (failure : Option String) (id : String) :
    StatefulRun DbError RunDatabase (Option WorkflowRunStatus) where
  run database :=
    match failure with
    | some error => .error (.other error) database
    | none => .ok ((database.runs.find id).map RunRow.status) database

def isTerminal (status : WorkflowRunStatus) : Bool :=
  status = .completed ∨ status = .failed ∨ status = .cancelled

/-! ## Deletion by age -/

/-- The earliest time that SQLite can represent: an earlier one is null, which is not after
any time. -/
def earliestInstant : Instant := -210866760000 * microsPerSecond

def cutoff (dialect : Dialect) (clock : Instant) (days : Nat) : Option Instant :=
  let instant := dialect.nowMinusDays clock days
  match dialect with
  | .postgres => some instant
  | .sqlite => if earliestInstant ≤ instant then some instant else none

def statementClock (dialect : Dialect) (transaction : TransactionCall) (statement : DbCall) :
    Instant :=
  match dialect with
  | .postgres => transaction.clock
  | .sqlite => statement.clock

def isOld (dialect : Dialect) (clock : Instant) (days : Nat) (row : RunRow) : Bool :=
  isTerminal row.status && (cutoff dialect clock days).any (row.startedAt < ·)

structure DeleteOldCall where
  olderThanDays : UInt32
  transaction : TransactionCall
  events : DbCall
  runs : DbCall
  deriving DecidableEq, Repr

section

variable (dialect : Dialect) (call : DeleteOldCall)

def oldForEvents : RunRow → Bool :=
  isOld dialect (statementClock dialect call.transaction call.events) call.olderThanDays.toNat

def oldForRuns : RunRow → Bool :=
  isOld dialect (statementClock dialect call.transaction call.runs) call.olderThanDays.toNat

def deleteOldClosure : StatefulRun DbError RunDatabase Nat := do
  deleteEvents call.events.failure fun database event =>
    database.runs.rows.any fun row =>
      oldForEvents dialect call row && row.id == event.workflowRunId
  deleteRuns call.runs.failure (oldForRuns dialect call)

def deleteOldWorkflowRuns (database : RunDatabase) : RunDatabase × Except StoreError Nat :=
  if 4294967295 < call.olderThanDays.toNat then
    (database, .error (.db ("Invalid olderThanDays: " ++ toString call.olderThanDays.toNat ++
      " (must be a non-negative integer)")))
  else
    let outcome := withTransaction call.transaction (deleteOldClosure dialect call) database
    (outcome.1, outcome.2.mapError fun error =>
      .db ("Failed to clean up old workflow runs: " ++ error.message))

end

/-! ## Deletion by id -/

structure DeleteRunCall where
  id : String
  transaction : TransactionCall
  select : Option String := none
  events : Option String := none
  runs : Option String := none
  deriving DecidableEq, Repr

section

variable (call : DeleteRunCall)

/-- Whatever keeps the status of the run from being read as terminal is reported alike. -/
def requireTerminal : StatefulRun DbError RunDatabase Unit where
  run database :=
    match (selectStatus call.select call.id).run database with
    | .ok (some status) final =>
        if isTerminal status then .ok () final else .error .rowNotFound final
    | .ok none final => .error .rowNotFound final
    | .error _ final => .error .rowNotFound final

def deleteRunClosure : StatefulRun DbError RunDatabase Unit := do
  requireTerminal call
  deleteEvents call.events fun _ event => event.workflowRunId == call.id
  let deleted ← deleteRuns call.runs fun row => row.id == call.id
  if deleted = 0 then .fail .rowNotFound else pure ()

def deleteWorkflowRun (database : RunDatabase) : RunDatabase × Except StoreError Unit :=
  let outcome := withTransaction call.transaction (deleteRunClosure call) database
  (outcome.1, outcome.2.mapError fun error =>
    match error with
    | .rowNotFound => .db ("Workflow run not found or not terminal: " ++ call.id)
    | .other message => .db ("Failed to delete workflow run: " ++ message))

end

/-! ## What a transaction does -/

theorem withTransaction_cases {α : Type} (call : TransactionCall)
    (closure : StatefulRun DbError RunDatabase α) (database : RunDatabase) :
    (∃ error, withTransaction call closure database = (database, .error error)) ∨
      ∃ value changed, closure.run database = .ok value changed ∧ call.opening = none ∧
        call.commit = none ∧ withTransaction call closure database = (changed, .ok value) := by
  rw [withTransaction]
  cases call.opening with
  | some error => exact .inl ⟨_, rfl⟩
  | none =>
      cases closure.run database with
      | error error final => exact .inl ⟨_, rfl⟩
      | ok value changed =>
          cases call.commit with
          | some error => exact .inl ⟨_, rfl⟩
          | none => exact .inr ⟨value, changed, rfl, rfl, rfl, rfl⟩

variable {database : RunDatabase}

theorem withTransaction_of_ok {α : Type} {call : TransactionCall}
    {closure : StatefulRun DbError RunDatabase α} {changed : RunDatabase} {value : α}
    (ran : closure.run database = .ok value changed) (opened : call.opening = none)
    (committed : call.commit = none) :
    withTransaction call closure database = (changed, .ok value) := by
  rw [withTransaction, opened]
  dsimp only
  rw [ran]
  dsimp only
  rw [committed]

/-! ## What a deletion does -/

def DeleteOldCall.Succeeds (call : DeleteOldCall) : Prop :=
  call.transaction.opening = none ∧ call.events.failure = none ∧ call.runs.failure = none ∧
    call.transaction.commit = none

def withoutOld (dialect : Dialect) (call : DeleteOldCall) (database : RunDatabase) :
    RunDatabase where
  runs := database.runs.deleteWhere (oldForRuns dialect call)
  events := database.events.filter fun event =>
    !database.runs.rows.any fun row =>
      oldForEvents dialect call row && row.id == event.workflowRunId

def withoutRun (id : String) (database : RunDatabase) : RunDatabase where
  runs := database.runs.deleteWhere fun row => row.id == id
  events := database.events.filter fun event => !(event.workflowRunId == id)

theorem run_deleteEvents (guard : RunDatabase → EventRow → Bool) (database : RunDatabase) :
    (deleteEvents none guard).run database =
      .ok () { database with events := database.events.filter fun row => !guard database row } :=
  rfl

theorem run_deleteEvents_error (error : String) (guard : RunDatabase → EventRow → Bool)
    (database : RunDatabase) :
    (deleteEvents (some error) guard).run database = .error (.other error) database :=
  rfl

theorem run_deleteRuns (guard : RunRow → Bool) (database : RunDatabase) :
    (deleteRuns none guard).run database =
      .ok (database.runs.rows.countP guard)
        { database with runs := database.runs.deleteWhere guard } :=
  rfl

theorem run_selectStatus (id : String) (database : RunDatabase) :
    (selectStatus none id).run database =
      .ok ((database.runs.find id).map RunRow.status) database :=
  rfl

variable {call : DeleteOldCall}

theorem run_deleteOldClosure (events : call.events.failure = none)
    (runs : call.runs.failure = none) (dialect : Dialect) (database : RunDatabase) :
    (deleteOldClosure dialect call).run database =
      .ok (database.runs.rows.countP (oldForRuns dialect call))
        (withoutOld dialect call database) := by
  rw [deleteOldClosure, events, runs, StatefulRun.bind_of_ok (run_deleteEvents _ _), run_deleteRuns]
  rfl

variable {final : RunDatabase}

theorem of_run_deleteOldClosure {dialect : Dialect}
    (ran : (deleteOldClosure dialect call).run database = .ok deleted final) :
    call.events.failure = none ∧ call.runs.failure = none := by
  rw [deleteOldClosure] at ran
  cases events : call.events.failure with
  | some error =>
      rw [events, StatefulRun.bind_of_error (run_deleteEvents_error _ _ _)] at ran
      cases ran
  | none =>
      rw [events, StatefulRun.bind_of_ok (run_deleteEvents _ _)] at ran
      cases runs : call.runs.failure with
      | none => exact ⟨rfl, rfl⟩
      | some error =>
          rw [runs] at ran
          cases ran

theorem deleteOldWorkflowRuns_eq (dialect : Dialect) (call : DeleteOldCall)
    (database : RunDatabase) :
    deleteOldWorkflowRuns dialect call database =
      ((withTransaction call.transaction (deleteOldClosure dialect call) database).1,
        (withTransaction call.transaction (deleteOldClosure dialect call) database).2.mapError
          fun error => .db ("Failed to clean up old workflow runs: " ++ error.message)) := by
  have bounded := call.olderThanDays.toNat_lt
  rw [deleteOldWorkflowRuns, if_neg (by omega)]

/-- A deletion by age takes both statements together, or nothing. -/
theorem deleteOldWorkflowRuns_cases (dialect : Dialect) (call : DeleteOldCall)
    (database : RunDatabase) :
    (call.Succeeds ∧ deleteOldWorkflowRuns dialect call database =
        (withoutOld dialect call database,
          .ok (database.runs.rows.countP (oldForRuns dialect call)))) ∨
      ¬call.Succeeds ∧
        ∃ error, deleteOldWorkflowRuns dialect call database = (database, .error error) := by
  rw [deleteOldWorkflowRuns_eq]
  by_cases succeeds : call.Succeeds
  · rcases succeeds with ⟨opened, events, runs, committed⟩
    refine .inl ⟨⟨opened, events, runs, committed⟩, ?_⟩
    rw [withTransaction_of_ok (run_deleteOldClosure events runs dialect database) opened committed]
    rfl
  · refine .inr ⟨succeeds, ?_⟩
    rcases withTransaction_cases call.transaction (deleteOldClosure dialect call) database with
      failed | done
    · rcases failed with ⟨error, failed⟩
      rw [failed]
      exact ⟨_, rfl⟩
    · rcases done with ⟨deleted, final, ran, opened, committed, -⟩
      rcases of_run_deleteOldClosure ran with ⟨events, runs⟩
      exact absurd ⟨opened, events, runs, committed⟩ succeeds

theorem of_run_requireTerminal {call : DeleteRunCall}
    (ran : (requireTerminal call).run database = .ok () final) :
    final = database ∧
      ∃ row ∈ database.runs.rows, row.id = call.id ∧ isTerminal row.status = true := by
  rw [requireTerminal] at ran
  dsimp only at ran
  cases select : call.select with
  | some error =>
      rw [select] at ran
      cases ran
  | none =>
      rw [select, run_selectStatus] at ran
      cases found : database.runs.find call.id with
      | none =>
          rw [found] at ran
          cases ran
      | some row =>
          rw [found] at ran
          dsimp only [Option.map_some] at ran
          split at ran
          · next terminal =>
              cases ran
              rcases Table.find_eq_some.mp found with ⟨member, named⟩
              exact ⟨rfl, row, member, named, terminal⟩
          · cases ran

theorem of_run_deleteRunClosure {call : DeleteRunCall}
    (ran : (deleteRunClosure call).run database = .ok () final) :
    final = withoutRun call.id database ∧
      ∃ row ∈ database.runs.rows, row.id = call.id ∧ isTerminal row.status = true := by
  rw [deleteRunClosure] at ran
  cases guarded : (requireTerminal call).run database with
  | error error between =>
      rw [StatefulRun.bind_of_error guarded] at ran
      cases ran
  | ok value between =>
      rw [StatefulRun.bind_of_ok guarded] at ran
      rcases of_run_requireTerminal guarded with ⟨rfl, found⟩
      refine ⟨?_, found⟩
      cases events : call.events with
      | some error =>
          rw [events, StatefulRun.bind_of_error (run_deleteEvents_error _ _ _)] at ran
          cases ran
      | none =>
          rw [events, StatefulRun.bind_of_ok (run_deleteEvents _ _)] at ran
          cases runs : call.runs with
          | some error =>
              rw [runs] at ran
              cases ran
          | none =>
              rw [runs, StatefulRun.bind_of_ok (run_deleteRuns _ _)] at ran
              split at ran
              · cases ran
              · cases ran
                rfl

theorem deleteWorkflowRun_cases (call : DeleteRunCall) (database : RunDatabase) :
    (∃ error, deleteWorkflowRun call database = (database, .error error)) ∨
      deleteWorkflowRun call database = (withoutRun call.id database, .ok ()) ∧
        ∃ row ∈ database.runs.rows, row.id = call.id ∧ isTerminal row.status = true := by
  rw [deleteWorkflowRun]
  rcases withTransaction_cases call.transaction (deleteRunClosure call) database with
    failed | done
  · rcases failed with ⟨error, failed⟩
    rw [failed]
    exact .inl ⟨_, rfl⟩
  · rcases done with ⟨value, final, ran, opened, committed, whole⟩
    rcases of_run_deleteRunClosure ran with ⟨rfl, found⟩
    rw [whole]
    exact .inr ⟨rfl, found⟩

/-! ## Sound deletions -/

/-- No event refers to a run that was deleted, no run that has not ended was deleted, and an
error means that nothing has changed. -/
structure Sound (before after : RunDatabase) (failed : Prop) : Prop where
  unreferenced : ∀ row ∈ before.runs.rows, row.id ∉ after.runs.rows.map RunRow.id →
    ∀ event ∈ after.events, event.workflowRunId ≠ row.id
  live : ∀ row ∈ before.runs.rows, row.status ∈ [.pending, .running, .paused] →
    row ∈ after.runs.rows
  unchanged : failed → after = before

theorem Sound.refl (database : RunDatabase) (failed : Prop) : Sound database database failed where
  unreferenced _ member gone := absurd (List.mem_map_of_mem member) gone
  live _ member _ := member
  unchanged _ := rfl

inductive Operation
  | other (change : RunDatabase → RunDatabase)
  | deleteOld (call : DeleteOldCall)
  | deleteRun (call : DeleteRunCall)

def step (dialect : Dialect) (database : RunDatabase) : Operation → RunDatabase
  | .other change => change database
  | .deleteOld call => (deleteOldWorkflowRuns dialect call database).1
  | .deleteRun call => (deleteWorkflowRun call database).1

def SoundAt (dialect : Dialect) (database : RunDatabase) : Operation → Prop
  | .other _ => True
  | .deleteOld call =>
      Sound database (deleteOldWorkflowRuns dialect call database).1
        (∃ error, (deleteOldWorkflowRuns dialect call database).2 = .error error)
  | .deleteRun call =>
      Sound database (deleteWorkflowRun call database).1
        (∃ error, (deleteWorkflowRun call database).2 = .error error)

/-- No run with events passes the limit of age between the two statements of a deletion. -/
def NothingPasses (dialect : Dialect) (database : RunDatabase) : Operation → Prop
  | .deleteOld call =>
      call.Succeeds → ∀ row ∈ database.runs.rows, oldForRuns dialect call row = true →
        oldForEvents dialect call row = false →
          ∀ event ∈ database.events, event.workflowRunId ≠ row.id
  | _ => True

theorem not_isTerminal_of_live (live : status ∈ [WorkflowRunStatus.pending, .running, .paused]) :
    isTerminal status = false := by
  cases status with
  | pending => rfl
  | running => rfl
  | paused => rfl
  | completed => simp at live
  | failed => simp at live
  | cancelled => simp at live

theorem isTerminal_of_oldForRuns {dialect : Dialect}
    (old : oldForRuns dialect call row = true) : isTerminal row.status = true :=
  (Bool.and_eq_true_iff.mp old).1

theorem mem_events_withoutOld {dialect : Dialect} {event : EventRow} :
    event ∈ (withoutOld dialect call database).events ↔ event ∈ database.events ∧
      ∀ row ∈ database.runs.rows, row.id = event.workflowRunId →
        oldForEvents dialect call row = false := by
  rw [withoutOld, List.mem_filter, Bool.not_eq_true', List.any_eq_false]
  apply and_congr_right
  intro _
  apply forall₂_congr
  intro row _
  rw [Bool.and_eq_true, beq_iff_eq, not_and', Bool.not_eq_true]

theorem row_eq_of_id (member : row ∈ database.runs.rows) (otherMember : other ∈ database.runs.rows)
    (same : other.id = row.id) : other = row :=
  List.inj_on_of_nodup_map database.runs.distinct otherMember member same

theorem sound_withoutOld_iff (dialect : Dialect) (call : DeleteOldCall) (database : RunDatabase)
    {failed : Prop} (done : ¬failed) :
    Sound database (withoutOld dialect call database) failed ↔
      ∀ row ∈ database.runs.rows, oldForRuns dialect call row = true →
        oldForEvents dialect call row = false →
          ∀ event ∈ database.events, event.workflowRunId ≠ row.id := by
  constructor
  · intro sound row member deleted kept event stored refers
    apply sound.unreferenced row member _ event _ refers
    · intro listed
      have left := (Table.key_mem_deleteWhere member).mp listed
      rw [deleted] at left
      cases left
    · refine mem_events_withoutOld.mpr ⟨stored, ?_⟩
      intro other otherMember named
      rw [row_eq_of_id member otherMember (named.trans refers)]
      exact kept
  · intro condition
    refine ⟨?_, ?_, fun failure => absurd failure done⟩
    · intro row member gone event kept refers
      rcases mem_events_withoutOld.mp kept with ⟨stored, young⟩
      have deleted : oldForRuns dialect call row = true := by
        by_contra left
        exact gone ((Table.key_mem_deleteWhere member).mpr (Bool.eq_false_of_not_eq_true left))
      exact condition row member deleted (young row member refers.symm) event stored refers
    · intro row member live
      refine Table.mem_deleteWhere.mpr ⟨member, ?_⟩
      by_contra deleted
      have terminal := isTerminal_of_oldForRuns (Bool.eq_true_of_not_eq_false deleted)
      rw [not_isTerminal_of_live live] at terminal
      cases terminal

theorem sound_withoutRun {id : String} {failed : Prop} (done : ¬failed)
    (member : row ∈ database.runs.rows) (named : row.id = id)
    (terminal : isTerminal row.status = true) : Sound database (withoutRun id database) failed := by
  refine ⟨?_, ?_, fun failure => absurd failure done⟩
  · intro other otherMember gone event kept refers
    have left := (List.mem_filter.mp kept).2
    rw [refers, Bool.not_eq_true'] at left
    exact gone ((Table.key_mem_deleteWhere otherMember).mpr left)
  · intro other otherMember live
    refine Table.mem_deleteWhere.mpr ⟨otherMember, ?_⟩
    rw [beq_eq_false_iff_ne]
    intro same
    have ended : isTerminal other.status = true := by
      rw [row_eq_of_id member otherMember (same.trans named.symm)]
      exact terminal
    rw [not_isTerminal_of_live live] at ended
    cases ended

theorem soundAt_iff (dialect : Dialect) (database : RunDatabase) (operation : Operation) :
    SoundAt dialect database operation ↔ NothingPasses dialect database operation := by
  cases operation with
  | other change => rfl
  | deleteRun call =>
      refine iff_of_true ?_ trivial
      rw [SoundAt]
      rcases deleteWorkflowRun_cases call database with ⟨error, failed⟩ | ⟨done, found⟩
      · rw [failed]
        exact .refl database _
      · rcases found with ⟨row, member, named, terminal⟩
        rw [done]
        refine sound_withoutRun ?_ member named terminal
        intro failed
        rcases failed with ⟨error, wrong⟩
        cases wrong
  | deleteOld call =>
      rw [SoundAt, NothingPasses]
      rcases deleteOldWorkflowRuns_cases dialect call database with
        ⟨succeeds, done⟩ | ⟨fails, error, failed⟩
      · rw [done]
        rw [sound_withoutOld_iff]
        · exact (imp_iff_right succeeds).symm
        · intro failed
          rcases failed with ⟨error, wrong⟩
          cases wrong
      · rw [failed]
        exact iff_of_true (.refl database _) fun succeeds => absurd succeeds fails

/-- The deletions of a run are sound exactly if no run with events comes of age between the
two statements of one. -/
theorem soundAt_along_iff (dialect : Dialect) (database : RunDatabase)
    (operations : List Operation) :
    EventRun.Along (step dialect) (SoundAt dialect) database operations ↔
      EventRun.Along (step dialect) (NothingPasses dialect) database operations :=
  EventRun.along_congr (soundAt_iff dialect) database operations

/-- A run that started a day before the first statement, to the second. -/
def dayOldRun : RunRow where
  id := "run"
  status := .completed
  startedAt := 0

def dayOldDatabase : RunDatabase where
  runs := ⟨[dayOldRun], List.nodup_singleton _⟩
  events :=
    [{ workflowRunId := "run", eventType := "workflow_completed", stepIndex := none
       stepName := none, data := none, createdAt := 0 }]

def secondApart : DeleteOldCall where
  olderThanDays := 1
  transaction := { clock := 86400000000 }
  events := { clock := 86400000000 }
  runs := { clock := 86401000000 }

theorem not_soundAt_secondApart :
    ¬EventRun.Along (step .sqlite) (SoundAt .sqlite) dayOldDatabase [.deleteOld secondApart] ∧
      (deleteOldWorkflowRuns .sqlite secondApart dayOldDatabase).2 = .ok 1 ∧
        (deleteOldWorkflowRuns .sqlite secondApart dayOldDatabase).1.runs.rows = [] ∧
          (deleteOldWorkflowRuns .sqlite secondApart dayOldDatabase).1.events =
            dayOldDatabase.events := by
  refine ⟨?_, rfl, rfl, rfl⟩
  intro along
  have gone : dayOldRun.id ∉
      (deleteOldWorkflowRuns .sqlite secondApart dayOldDatabase).1.runs.rows.map RunRow.id :=
    List.not_mem_nil
  exact along.1.unreferenced dayOldRun (List.mem_singleton.mpr rfl) gone _
    (List.mem_singleton.mpr rfl) rfl

end RunDeletion

end HarnessAgent
