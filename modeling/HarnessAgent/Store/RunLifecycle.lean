import HarnessAgent.Foundation.OrderedSelection
import HarnessAgent.Store.ParameterTypes
import HarnessAgent.Store.ResumeRace
import HarnessAgent.Store.RunDeletion

/-! # The life of a run

Clients create, move, update and delete runs, report their activity, and look for one to
resume.
-/

namespace HarnessAgent

namespace SqlWorkflowStore

open Postgres (CreateWorkflowRunData WorkflowRunUpdate)
open RunDeletion (isTerminal)

def insertedRun (dialect : Dialect) (clock : Instant) (runId : String)
    (data : CreateWorkflowRunData) : RunRow where
  id := runId
  workflowName := data.workflowName
  conversationId := data.conversationId
  parentConversationId := data.parentConversationId
  codebaseId := data.codebaseId
  status := .pending
  userMessage := data.userMessage
  metadata := some (.object (data.metadata.getD []))
  startedAt := dialect.now clock
  lastActivityAt := some (dialect.now clock)
  workingPath := data.workingPath
  userId := data.userId

/-- The database refuses an identifier that is taken, with a text of its own. -/
def createWorkflowRun (dialect : Dialect) (taken : String) (call : DbCall) (table : RunTable)
    (runId : String) (data : CreateWorkflowRunData) : RunTable × Except StoreError WorkflowRun :=
  match call.failure with
  | some error => (table, .error (.db error))
  | none =>
      if (table.find runId).isSome then (table, .error (.db taken))
      else
        let row := insertedRun dialect call.clock runId data
        (table.upsert row, .ok (normalizeRowToRun row))

/-- An answer at a gate marks the run as failed without ending it. -/
def isApprovalTransition (updates : WorkflowRunUpdate) : Bool :=
  updates.status = some .failed ∧ updates.metadata.any fun members =>
    (members.get "approval_response").isSome || (members.get "loop_user_input").isSome

def setsCompletedAt (updates : WorkflowRunUpdate) : Bool :=
  updates.status.any isTerminal && !isApprovalTransition updates

def runUpdate (dialect : Dialect) (clock : Instant) (id : String) (updates : WorkflowRunUpdate) :
    RowUpdate RunRow.id where
  guard row := row.id = id
  set row :=
    { row with
      status := updates.status.getD row.status
      completedAt :=
        if setsCompletedAt updates then some (dialect.now clock) else row.completedAt
      metadata :=
        match updates.metadata with
        | some members => dialect.jsonMerge row.metadata (.object members)
        | none => row.metadata }
  keepsKey _ := rfl

def updateWorkflowRun (dialect : Dialect) (call : DbCall) (table : RunTable) (id : String)
    (updates : WorkflowRunUpdate) : RunTable × Except StoreError Unit :=
  if updates.status.isNone ∧ updates.metadata.isNone then (table, .ok ())
  else
    let outcome := query call table (runUpdate dialect call.clock id updates)
    (outcome.1,
      match outcome.2 with
      | .ok 0 => .error (.db ("Workflow run not found (id: " ++ id ++ ")"))
      | .ok _ => .ok ()
      | .error error =>
          if error.startsWith "Workflow run not found" then .error (.db error)
          else .error (.db ("Failed to update workflow run: " ++ error)))

def resumableRows (dialect : Dialect) (clock : Instant) (table : RunTable)
    (workflowName workingPath : String) : List RunRow :=
  table.rows.filter fun row =>
    row.workflowName = workflowName ∧ row.workingPath = some workingPath ∧
      resumableStatusClause dialect clock row

def FindsResumableRun (dialect : Dialect) (call : DbCall) (table : RunTable)
    (workflowName workingPath : String) (answer : Except StoreError (Option WorkflowRun)) : Prop :=
  match call.failure with
  | some error => answer = .error (.db ("Failed to find resumable run: " ++ error))
  | none =>
      ∃ rows, OrderedSelection.Selects (fun row => OrderDual.toDual row.startedAt) (some 1)
        (resumableRows dialect call.clock table workflowName workingPath) rows ∧
          answer = .ok (rows.head?.map normalizeRowToRun)

end SqlWorkflowStore

namespace RunLifecycle

open Postgres (CreateWorkflowRunData WorkflowRunUpdate)
open RunDeletion
open SqlWorkflowStore

inductive Statement
  | create (runId : String) (data : CreateWorkflowRunData)
  | operation (operation : RunOperation)
  | update (id : String) (updates : WorkflowRunUpdate)
  | activity (id : String)
  | deleteRun (deletion : DeleteRunCall)
  | deleteOld (deletion : DeleteOldCall)

variable {dialect : Dialect} {taken : String} {call : DbCall} {database : RunDatabase}

/-- The tables after a statement. A deletion is a transaction of several statements, each of
which is answered on its own. -/
def execute (dialect : Dialect) (taken : String) (database : RunDatabase) :
    DbCall × Statement → RunDatabase
  | (call, .create runId data) =>
      { database with runs := (createWorkflowRun dialect taken call database.runs runId data).1 }
  | (call, .operation operation) =>
      { database with runs := RunHistory.step dialect database.runs ⟨(), operation, call⟩ }
  | (call, .update id updates) =>
      { database with runs := (updateWorkflowRun dialect call database.runs id updates).1 }
  | (call, .activity id) =>
      { database with runs := (updateWorkflowActivity dialect call database.runs id).1 }
  | (_, .deleteRun deletion) => (deleteWorkflowRun deletion database).1
  | (_, .deleteOld deletion) => (deleteOldWorkflowRuns dialect deletion database).1

def change (dialect : Dialect) (call : DbCall) : Statement → RunRow → RunRow
  | .create .. | .deleteRun _ | .deleteOld _ => id
  | .operation operation => (operation.update dialect call.clock).apply
  | .update runId updates => (runUpdate dialect call.clock runId updates).apply
  | .activity runId => (activityUpdate dialect call.clock runId).apply

def removes (dialect : Dialect) : Statement → RunRow → Bool
  | .create .. | .operation _ | .update .. | .activity _ => fun _ => false
  | .deleteRun deletion => fun row => row.id == deletion.id
  | .deleteOld deletion => oldForRuns dialect deletion

/-- A statement has no effect on the runs, changes every row in the same way, removes rows, or
adds a run under an identifier that was free. -/
theorem execute_cases (statement : Statement) :
    (execute dialect taken database (call, statement)).runs = database.runs ∨
      (execute dialect taken database (call, statement)).runs.rows =
        database.runs.rows.map (change dialect call statement) ∨
      (execute dialect taken database (call, statement)).runs =
        database.runs.deleteWhere (removes dialect statement) ∨
      ∃ runId data, database.runs.find runId = none ∧
        (execute dialect taken database (call, statement)).runs =
          database.runs.upsert (insertedRun dialect call.clock runId data) := by
  have queried : ∀ update : RowUpdate RunRow.id,
      (query call database.runs update).1 = database.runs ∨
        (query call database.runs update).1.rows = database.runs.rows.map update.apply := by
    intro update
    rw [query]
    cases call.failure with
    | some error => exact .inl rfl
    | none => exact .inr rfl
  cases statement with
  | create runId data =>
      rw [execute, createWorkflowRun]
      cases call.failure with
      | some error => exact .inl rfl
      | none =>
          dsimp only
          cases free : database.runs.find runId with
          | some row => exact .inl rfl
          | none => exact .inr (.inr (.inr ⟨runId, data, free, rfl⟩))
  | operation operation =>
      rw [execute, RunHistory.step_eq_query]
      exact (queried _).imp_right .inl
  | update id updates =>
      rw [execute, updateWorkflowRun]
      split
      · exact .inl rfl
      · exact (queried _).imp_right .inl
  | activity id => exact (queried _).imp_right .inl
  | deleteRun deletion =>
      rw [execute]
      rcases deleteWorkflowRun_cases deletion database with ⟨error, kept⟩ | ⟨removed, -⟩
      · rw [kept]
        exact .inl rfl
      · rw [removed]
        exact .inr (.inr (.inl rfl))
  | deleteOld deletion =>
      rw [execute]
      rcases deleteOldWorkflowRuns_cases dialect deletion database with
        ⟨-, removed⟩ | ⟨-, error, kept⟩
      · rw [removed]
        exact .inr (.inr (.inl rfl))
      · rw [kept]
        exact .inl rfl

/-- A run has a completion time exactly if it has come to an end, and starts at a time that
the dialect can keep. -/
structure Consistent (dialect : Dialect) (row : RunRow) : Prop where
  settled : row.completedAt.isSome = isTerminal row.status
  precise : dialect.timestamp row.startedAt = row.startedAt

def Statement.Settles : Statement → Prop
  | .create .. | .operation _ | .activity _ | .deleteRun _ | .deleteOld _ => True
  | .update _ updates => updates.status = none ∨ setsCompletedAt updates = true

theorem precise_now (clock : Instant) : dialect.timestamp (dialect.now clock) = dialect.now clock :=
  dialect.timestamp_timestamp clock

variable {statement : Statement}

theorem consistent_change (settles : statement.Settles) (consistent : Consistent dialect row) :
    Consistent dialect (change dialect call statement row) := by
  rcases consistent with ⟨settled, precise⟩
  cases statement with
  | create | deleteRun | deleteOld => exact ⟨settled, precise⟩
  | operation operation =>
      refine RowUpdate.apply_rule (motive := Consistent dialect) ⟨settled, precise⟩ fun holds => ?_
      cases operation with
      | complete | fail | cancel | failOrphaned => exact ⟨rfl, precise⟩
      | resume id => exact ⟨rfl, precise_now call.clock⟩
      | pause id approvalContext =>
          have running : row.status = .running := (of_decide_eq_true holds).2
          rw [running] at settled
          exact ⟨settled, precise⟩
  | update id updates =>
      refine RowUpdate.apply_rule (motive := Consistent dialect) ⟨settled, precise⟩ fun _ =>
        ⟨?_, precise⟩
      dsimp only [runUpdate]
      rcases settles with untouched | ends
      · have same : setsCompletedAt updates = false := by rw [setsCompletedAt, untouched]; rfl
        rw [same, untouched]
        exact settled
      · rw [if_pos ends]
        rw [setsCompletedAt, Bool.and_eq_true] at ends
        cases given : updates.status with
        | none => simp [given] at ends
        | some status =>
            rw [given] at ends
            exact ends.1.symm
  | activity id =>
      exact RowUpdate.apply_rule (motive := Consistent dialect) ⟨settled, precise⟩ fun _ =>
        ⟨settled, precise⟩

theorem consistent_execute (settles : statement.Settles)
    (consistent : ∀ row ∈ database.runs.rows, Consistent dialect row) :
    ∀ row ∈ (execute dialect taken database (call, statement)).runs.rows,
      Consistent dialect row := by
  intro row member
  rcases @execute_cases dialect taken call database statement with
    same | changed | removed | ⟨runId, data, -, added⟩
  · rw [same] at member
    exact consistent row member
  · rw [changed] at member
    rcases List.mem_map.mp member with ⟨before, stored, rfl⟩
    exact consistent_change settles (consistent before stored)
  · rw [removed] at member
    exact consistent row (Table.mem_deleteWhere.mp member).1
  · rw [added, Table.upsert] at member
    rcases List.mem_append.mp member with kept | inserted
    · exact consistent row (List.mem_filter.mp kept).1
    · rw [List.mem_singleton.mp inserted]
      exact ⟨rfl, precise_now call.clock⟩

def emptyDatabase : RunDatabase := ⟨⟨[], List.nodup_nil⟩, []⟩

/-- Whatever clients do, and however their statements interleave and fail: a stored run has a
completion time exactly if it has come to an end, and a start that the dialect can keep,
unless an update sets a status without ending the run. -/
theorem consistent_run (dialect : Dialect) (taken : String)
    {statements : List (DbCall × Statement)}
    (settles : ∀ statement ∈ statements, statement.2.Settles) :
    ∀ row ∈ (EventRun.run (execute dialect taken) emptyDatabase statements).runs.rows,
      Consistent dialect row := by
  have keeps : ∀ (database : RunDatabase) (statement : DbCall × Statement),
      (∀ row ∈ database.runs.rows, Consistent dialect row) → statement.2.Settles →
        ∀ row ∈ (execute dialect taken database statement).runs.rows,
          Consistent dialect row := by
    intro database statement consistent settles
    exact consistent_execute settles consistent
  exact EventRun.run_keeps keeps (List.forall_mem_nil _) settles

def review : CreateWorkflowRunData :=
  ⟨"review", "conversation", none, "look", none, some "/repo", none, none⟩

def cancelled : RunDatabase :=
  EventRun.run (execute .sqlite "taken") emptyDatabase
    [({ clock := 1500000 }, .create "run" review), ({ clock := 2500000 }, .operation (.cancel "run"))]

theorem consistent_run_cancelled :
    cancelled.runs.rows.length = 1 ∧ ∀ row ∈ cancelled.runs.rows, Consistent .sqlite row :=
  ⟨by decide, consistent_run .sqlite "taken" (by simp [Statement.Settles])⟩

/-- The run is stored with its start, and can be resumed at the given time or later. -/
def Awaits (dialect : Dialect) (clock : Instant) (run : WorkflowRun)
    (workflowName workingPath : String) (table : RunTable) : Prop :=
  ∃ row, table.find run.id = some row ∧ row.workflowName = workflowName ∧
    row.workingPath = some workingPath ∧ row.startedAt = run.startedAt ∧
    resumableStatusClause dialect clock row = true

/-- A deletion by age is about runs that have started before this run. -/
def StartsLater (dialect : Dialect) (deletion : DeleteOldCall) (startedAt : Instant) : Prop :=
  (cutoff dialect (statementClock dialect deletion.transaction deletion.runs)
    deletion.olderThanDays.toNat).any (startedAt < ·) = false

def Statement.Spares (dialect : Dialect) (run : WorkflowRun) : Statement → Prop
  | .create .. | .operation (.fail ..) | .operation (.pause ..) | .operation .failOrphaned => True
  | .operation (.complete other _) | .operation (.cancel other) | .operation (.resume other) =>
      other ≠ run.id
  | .update other updates =>
      other = run.id → ∀ status, updates.status = some status →
        status = .failed ∨ status = .paused
  | .activity other => other ≠ run.id
  | .deleteRun deletion => deletion.id ≠ run.id
  | .deleteOld deletion => StartsLater dialect deletion run.startedAt

section

variable {clock : Instant} {run : WorkflowRun} {workflowName workingPath : String}

theorem resumable_change (spares : statement.Spares dialect run) (same : row.id = run.id)
    (resumable : resumableStatusClause dialect clock row = true) :
    resumableStatusClause dialect clock (change dialect call statement row) = true := by
  have rule := fun update : RowUpdate RunRow.id => @RowUpdate.apply_rule _ _ _
    (fun row => resumableStatusClause dialect clock row = true) update row resumable
  cases statement with
  | create | deleteRun | deleteOld => exact resumable
  | operation operation =>
      refine rule _ fun holds => ?_
      cases operation with
      | complete other _ | cancel other | resume other =>
          exact absurd ((of_decide_eq_true holds).1.symm.trans same) spares
      | fail | failOrphaned => exact decide_eq_true (.inl rfl)
      | pause => exact decide_eq_true (.inr (.inl rfl))
  | update other updates =>
      refine rule _ fun holds => ?_
      cases given : updates.status with
      | none => simpa [runUpdate, given, resumableStatusClause] using resumable
      | some status =>
          rcases spares ((of_decide_eq_true holds).symm.trans same) status given with rfl | rfl
          · exact decide_eq_true (.inl (by simp [runUpdate, given]))
          · exact decide_eq_true (.inr (.inl (by simp [runUpdate, given])))
  | activity other =>
      exact rule _ fun holds => absurd ((of_decide_eq_true holds).symm.trans same) spares

theorem change_keeps (statement : Statement) (row : RunRow) :
    (change dialect call statement row).id = row.id ∧
      (change dialect call statement row).workflowName = row.workflowName ∧
      (change dialect call statement row).workingPath = row.workingPath := by
  have rule := fun update : RowUpdate RunRow.id => @RowUpdate.apply_rule _ _ _
    (fun after => after.id = row.id ∧ after.workflowName = row.workflowName ∧
      after.workingPath = row.workingPath) update row ⟨rfl, rfl, rfl⟩
  cases statement with
  | create | deleteRun | deleteOld => exact ⟨rfl, rfl, rfl⟩
  | operation operation => exact rule _ fun _ => by cases operation <;> exact ⟨rfl, rfl, rfl⟩
  | update | activity => exact rule _ fun _ => ⟨rfl, rfl, rfl⟩

theorem startedAt_change (spares : statement.Spares dialect run) (same : row.id = run.id) :
    (change dialect call statement row).startedAt = row.startedAt := by
  have rule := fun update : RowUpdate RunRow.id => @RowUpdate.apply_rule _ _ _
    (fun after => after.startedAt = row.startedAt) update row rfl
  cases statement with
  | create | deleteRun | deleteOld => rfl
  | operation operation =>
      refine rule _ fun holds => ?_
      cases operation with
      | resume other => exact absurd ((of_decide_eq_true holds).1.symm.trans same) spares
      | complete | cancel | fail | failOrphaned | pause => rfl
  | update | activity => exact rule _ fun _ => rfl

theorem not_removes (spares : statement.Spares dialect run) (same : row.id = run.id)
    (started : row.startedAt = run.startedAt) : removes dialect statement row = false := by
  cases statement with
  | create | operation | update | activity => rfl
  | deleteRun deletion => exact beq_false_of_ne fun other => spares (other.symm.trans same)
  | deleteOld deletion =>
      rw [removes, oldForRuns, isOld, started, spares, Bool.and_false]

theorem awaits_execute (spares : statement.Spares dialect run)
    (awaits : Awaits dialect clock run workflowName workingPath database.runs) :
    Awaits dialect clock run workflowName workingPath
      (execute dialect taken database (call, statement)).runs := by
  rcases awaits with ⟨row, found, name, path, started, resumable⟩
  rcases Table.find_eq_some.mp found with ⟨member, same⟩
  rcases @execute_cases dialect taken call database statement with
    unchanged | changed | removed | ⟨runId, data, free, added⟩
  · rw [unchanged]
    exact ⟨row, found, name, path, started, resumable⟩
  · have keeps := @change_keeps dialect call statement row
    refine ⟨change dialect call statement row, ?_, keeps.2.1.trans name, keeps.2.2.trans path,
      (startedAt_change spares same).trans started, resumable_change spares same resumable⟩
    rw [Table.find_eq_some, changed]
    exact ⟨List.mem_map_of_mem member, keeps.1.trans same⟩
  · refine ⟨row, ?_, name, path, started, resumable⟩
    rw [Table.find_eq_some, removed]
    exact ⟨Table.mem_deleteWhere.mpr ⟨member, not_removes spares same started⟩, same⟩
  · refine ⟨row, ?_, name, path, started, resumable⟩
    rw [added, Table.find_upsert, if_neg, found]
    intro named
    change runId = run.id at named
    rw [named, found] at free
    cases free

theorem resumable_later (later : clock ≤ other)
    (resumable : resumableStatusClause dialect clock row = true) :
    resumableStatusClause dialect other row = true := by
  have bound : dialect.nowMinusDays clock orphanResumeStaleDays ≤
      dialect.nowMinusDays other orphanResumeStaleDays := by
    have whole : wholeSecond clock ≤ wholeSecond other :=
      Int.mul_le_mul_of_nonneg_right (Int.ediv_le_ediv (by decide) later) (by decide)
    cases dialect with
    | postgres => exact Int.sub_le_sub_right later _
    | sqlite => exact Int.sub_le_sub_right whole _
  rcases of_decide_eq_true resumable with failed | paused | ⟨running, stale⟩
  · exact decide_eq_true (.inl failed)
  · exact decide_eq_true (.inr (.inl paused))
  · refine decide_eq_true (.inr (.inr ⟨running, ?_⟩))
    cases seen : row.lastActivityAt with
    | none => rfl
    | some activity =>
        rw [seen] at stale
        exact decide_eq_true (Int.lt_of_lt_of_le (of_decide_eq_true stale) bound)

theorem awaits_of_found
    (found : FindsResumableRun dialect call table workflowName workingPath (.ok (some run))) :
    Awaits dialect call.clock run workflowName workingPath table ∧
      ∀ row ∈ resumableRows dialect call.clock table workflowName workingPath,
        row.startedAt ≤ run.startedAt := by
  rw [FindsResumableRun] at found
  split at found
  · cases found
  · rcases found with ⟨rows, selects, answer⟩
    rw [Except.ok.injEq, eq_comm, Option.map_eq_some_iff] at answer
    rcases answer with ⟨row, first, rfl⟩
    rcases selects.head_least first with ⟨member, latest⟩
    rcases List.mem_filter.mp member with ⟨stored, matching⟩
    rcases of_decide_eq_true matching with ⟨name, path, resumable⟩
    exact ⟨⟨row, Table.find_eq_some.mpr ⟨stored, rfl⟩, name, path, rfl, resumable⟩, latest⟩

/-- A run that was found to be resumable has the latest start of those that could be found, and
is resumed by whoever tries first and is answered: no statement of other clients in between
keeps it from being resumed, unless it completes, cancels, resumes or deletes the run,
deletes runs of its age, or reports activity of it. It is read back as running if nothing
comes between the update and the read. -/
theorem resumes_found {run : WorkflowRun} {search resume : DbCall}
    {between : List (DbCall × Statement)}
    (found : FindsResumableRun dialect search database.runs workflowName workingPath
      (.ok (some run)))
    (spared : ∀ statement ∈ between, statement.2.Spares dialect run)
    (later : search.clock ≤ resume.clock) (answered : resume.failure = none) :
    (∀ row ∈ resumableRows dialect search.clock database.runs workflowName workingPath,
      row.startedAt ≤ run.startedAt) ∧
    ∃ next count resumed,
      resumeWorkflowRun dialect resume
          (EventRun.run (execute dialect taken) database between).runs run.id =
        (next, .ok (count + 1)) ∧
      (∀ read : DbCall, read.failure = none →
        resumeWorkflowRunRead read next run.id (.ok (count + 1)) = .ok resumed) ∧
      resumed.id = run.id ∧ resumed.workflowName = workflowName ∧
      resumed.workingPath = some workingPath ∧ resumed.status = .running := by
  rcases awaits_of_found found with ⟨awaits, latest⟩
  refine ⟨latest, ?_⟩
  have keeps : ∀ (database : RunDatabase) (statement : DbCall × Statement),
      Awaits dialect search.clock run workflowName workingPath database.runs →
        statement.2.Spares dialect run →
          Awaits dialect search.clock run workflowName workingPath
            (execute dialect taken database statement).runs := by
    intro database statement awaits spares
    exact awaits_execute spares awaits
  rcases EventRun.run_keeps keeps awaits spared with ⟨row, stored, name, path, -, resumable⟩
  generalize (EventRun.run (execute dialect taken) database between).runs = reached at stored
  have same := Table.find_eq_some.mp stored
  have holds : (resumeUpdate dialect resume.clock run.id).guard row = true :=
    decide_eq_true ⟨same.2, resumable_later later resumable⟩
  have matched : 0 < reached.affected (resumeUpdate dialect resume.clock run.id) :=
    Table.affected_pos.mpr ⟨row, same.1, holds⟩
  rcases Nat.exists_eq_add_one_of_ne_zero matched.ne' with ⟨count, affected⟩
  refine ⟨reached.update (resumeUpdate dialect resume.clock run.id), count,
    normalizeRowToRun ((resumeUpdate dialect resume.clock run.id).set row), ?_, ?_, same.2, name,
    path, rfl⟩
  · rw [resumeWorkflowRun, query, answered]
    dsimp only
    rw [affected]
    rfl
  · intro read readable
    change resumeSelect read (reached.update _) run.id = _
    rw [resumeSelect, readable]
    dsimp only
    rw [Table.find_update, stored, Option.map_some, RowUpdate.apply, if_pos holds]

end

def pausedRun : RunRow :=
  { insertedRun .sqlite 0 "run" review with status := .paused }

def pausedDatabase : RunDatabase := ⟨⟨[pausedRun], List.nodup_singleton _⟩, []⟩

/-- A day after its start the run is not of the age of a week. -/
def oldRuns : DeleteOldCall where
  olderThanDays := 7
  transaction := { clock := 86400000000 }
  events := { clock := 86400000000 }
  runs := { clock := 86400000000 }

theorem resumes_found_paused :
    ∃ next count resumed, resumeWorkflowRun .sqlite { clock := 86400000000 }
        (EventRun.run (execute .sqlite "taken") pausedDatabase
          [({ clock := 0 }, .operation .failOrphaned),
            ({ clock := 86400000000 }, .deleteOld oldRuns)]).runs "run" =
        (next, .ok (count + 1)) ∧
      (∀ read : DbCall, read.failure = none →
        resumeWorkflowRunRead read next "run" (.ok (count + 1)) = .ok resumed) ∧
      resumed.id = "run" ∧ resumed.workflowName = "review" ∧
      resumed.workingPath = some "/repo" ∧ resumed.status = .running := by
  have found : FindsResumableRun .sqlite { clock := 0 } pausedDatabase.runs "review" "/repo"
      (.ok (some (normalizeRowToRun pausedRun))) :=
    ⟨[pausedRun], ⟨[pausedRun], .refl _, List.pairwise_singleton _ _, rfl⟩, rfl⟩
  have young : StartsLater .sqlite oldRuns (normalizeRowToRun pausedRun).startedAt := by
    rw [StartsLater]
    decide
  have spared : ∀ statement ∈ [(({ clock := 0 } : DbCall), Statement.operation .failOrphaned),
      ({ clock := 86400000000 }, .deleteOld oldRuns)],
      statement.2.Spares .sqlite (normalizeRowToRun pausedRun) :=
    List.forall_mem_cons.mpr ⟨trivial, List.forall_mem_singleton.mpr young⟩
  exact (resumes_found found spared (by decide) rfl).2

end RunLifecycle

end HarnessAgent
