import HarnessAgent.Foundation.OrderedSelection
import HarnessAgent.Store.ParameterBinding
import HarnessAgent.Store.WorkflowRuns
import Mathlib.Data.List.AList

/-! # Workflow events and the outputs restored from them

The executor records the output of a completed node in an event; on resume the
outputs are read back from the events of the run. There are two readers of the
same rows, one in the run store and one in the event store.
-/

namespace HarnessAgent

open OrderedSelection

inductive WorkflowEventType
  | workflowStarted
  | workflowCompleted
  | workflowFailed
  | nodeStarted
  | nodeCompleted
  | nodeFailed
  | nodeSkipped
  | nodeSkippedPriorSuccess
  | nodeAlwaysRunReset
  | loopIterationStarted
  | loopIterationCompleted
  | loopIterationFailed
  | toolCalled
  | toolCompleted
  | ralphStoryStarted
  | ralphStoryCompleted
  | approvalRequested
  | approvalReceived
  | workflowCancelled
  | workflowArtifact
  | nodeSessionResumed
  deriving DecidableEq, Repr

def WorkflowEventType.asStr : WorkflowEventType → String
  | .workflowStarted => "workflow_started"
  | .workflowCompleted => "workflow_completed"
  | .workflowFailed => "workflow_failed"
  | .nodeStarted => "node_started"
  | .nodeCompleted => "node_completed"
  | .nodeFailed => "node_failed"
  | .nodeSkipped => "node_skipped"
  | .nodeSkippedPriorSuccess => "node_skipped_prior_success"
  | .nodeAlwaysRunReset => "node_always_run_reset"
  | .loopIterationStarted => "loop_iteration_started"
  | .loopIterationCompleted => "loop_iteration_completed"
  | .loopIterationFailed => "loop_iteration_failed"
  | .toolCalled => "tool_called"
  | .toolCompleted => "tool_completed"
  | .ralphStoryStarted => "ralph_story_started"
  | .ralphStoryCompleted => "ralph_story_completed"
  | .approvalRequested => "approval_requested"
  | .approvalReceived => "approval_received"
  | .workflowCancelled => "workflow_cancelled"
  | .workflowArtifact => "workflow_artifact"
  | .nodeSessionResumed => "node_session_resumed"

structure CreateWorkflowEventData where
  workflowRunId : String
  eventType : WorkflowEventType
  stepIndex : Option UInt32 := none
  stepName : Option String := none
  data : Option Members := none
  deriving DecidableEq, Repr

/-- A stored event; a missing document is SQL's null. -/
structure EventRow where
  workflowRunId : String
  eventType : String
  stepIndex : Option Nat
  stepName : Option String
  data : Option Value
  createdAt : Instant
  deriving DecidableEq, Repr

abbrev EventTable := List EventRow

structure SqlDatabase where
  dialect : Dialect
  uuids : UuidLibrary

namespace SqlDatabase

variable (database : SqlDatabase)

/-- The text that a parameter is compared as and stored as. Postgres writes UUIDs in one
spelling, and takes no text with the null character. -/
def comparedText (text : String) : Option String :=
  match database.dialect with
  | .sqlite => some text
  | .postgres => (Postgres.stringArgument database.uuids text).storedText

def textIs (parameter column : String) : Bool :=
  database.comparedText parameter = some column

/-- The types of the parameters fit the columns of the events: Postgres takes no text for a
run that is no UUID, and no missing number or document, which are bound as texts. -/
def TakesEvent (data : CreateWorkflowEventData) : Prop :=
  database.dialect = .postgres →
    database.uuids.IsUuid data.workflowRunId ∧ data.stepIndex.isSome = true ∧
      data.data.isSome = true

instance (data : CreateWorkflowEventData) : Decidable (database.TakesEvent data) :=
  inferInstanceAs (Decidable (_ → _))

inductive Answers (call : DbCall) (table : EventTable) (run : String)
    (selected : EventRow → Bool) : Except String (List EventRow) → Prop
  | rows {rows : List EventRow} (executed : call.failure = none)
      (typed : database.dialect = .postgres → database.uuids.IsUuid run)
      (selects : Selects EventRow.createdAt none
        (table.filter fun row => database.textIs run row.workflowRunId && selected row) rows) :
      Answers call table run selected (.ok rows)
  | failed {error : String} (failure : call.failure = some error) :
      Answers call table run selected (.error error)
  | untyped {error : String} (executed : call.failure = none) (postgres : database.dialect = .postgres)
      (other : ¬database.uuids.IsUuid run) : Answers call table run selected (.error error)

structure Executes (call : DbCall) (run : String) : Prop where
  answered : call.failure = none
  typed : database.dialect = .postgres → database.uuids.IsUuid run

variable {database} {call : DbCall} {table : EventTable} {run : String}
  {selected : EventRow → Bool} {answer : Except String (List EventRow)}

theorem exists_answers (database : SqlDatabase) (call : DbCall) (table : EventTable)
    (run : String) (selected : EventRow → Bool) :
    ∃ answer, database.Answers call table run selected answer := by
  cases failure : call.failure with
  | some error => exact ⟨.error error, .failed failure⟩
  | none =>
      by_cases typed : database.dialect = .postgres → database.uuids.IsUuid run
      · rcases exists_selects EventRow.createdAt none
          (table.filter fun row => database.textIs run row.workflowRunId && selected row) with
          ⟨rows, selects⟩
        exact ⟨.ok rows, .rows failure typed selects⟩
      · push Not at typed
        exact ⟨.error "", .untyped failure typed.1 typed.2⟩

theorem Answers.executes_iff (answers : database.Answers call table run selected answer) :
    database.Executes call run ↔ ∃ rows, answer = .ok rows := by
  cases answers with
  | rows executed typed selects => exact iff_of_true ⟨executed, typed⟩ ⟨_, rfl⟩
  | failed failure =>
      apply iff_of_false
      · intro executes
        rw [executes.answered] at failure
        cases failure
      · rintro ⟨rows, wrong⟩
        cases wrong
  | untyped executed postgres other =>
      apply iff_of_false
      · exact fun executes => other (executes.typed postgres)
      · rintro ⟨rows, wrong⟩
        cases wrong

theorem Answers.mem_rows {rows : List EventRow}
    (answers : database.Answers call table run selected (.ok rows)) {row : EventRow} :
    row ∈ rows ↔ row ∈ table ∧ database.textIs run row.workflowRunId = true ∧
      selected row = true := by
  cases answers with
  | rows executed typed selects =>
      rw [selects.perm.mem_iff, List.mem_filter, Bool.and_eq_true]

end SqlDatabase

namespace SqlWorkflowStore

/-- `INSERT INTO remote_agent_workflow_events (workflow_run_id, ...) VALUES ($1, ..., $5)`; the
time of creation is the default of its column. A failed insert is logged and otherwise
ignored. -/
def createWorkflowEvent (database : SqlDatabase) (call : DbCall) (table : EventTable)
    (data : CreateWorkflowEventData) : EventTable :=
  match call.failure with
  | some _ => table
  | none =>
      if database.TakesEvent data then
        let stored (text : String) : String := (database.comparedText text).getD text
        table ++
          [{ workflowRunId := stored data.workflowRunId
             eventType := data.eventType.asStr
             stepIndex := data.stepIndex.map UInt32.toNat
             stepName := data.stepName.map stored
             data := data.data.map Value.object
             createdAt := database.dialect.timestamp call.clock }]
      else table

end SqlWorkflowStore

/-- How a dialect delivers a stored document: as a document, or as its text. -/
def Dialect.deliver (dialect : Dialect) (serde : SerdeJson) : Option Value → Value
  | none => .null
  | some document =>
      match dialect with
      | .postgres => document
      | .sqlite => .string (serde.toString document)

abbrev NodeOutputTexts := AList (fun _ : String => String)

/-! ## The two readers -/

namespace SqlWorkflowStore

/-- The output of one row: the node is named in the document, by either of two
keys of which the second is only tried if the first holds no string. -/
def rowOutput (data : Value) : Option (String × String) :=
  match (data.get "nodeId").bind Value.asStr with
  | some nodeId => ((data.get "output").bind Value.asStr).map fun output => (nodeId, output)
  | none =>
      match (data.get "node_id").bind Value.asStr with
      | some nodeId =>
          ((data.get "output").bind Value.asStr).map fun output => (nodeId, output)
      | none => none

def selectsEvent (row : EventRow) : Bool :=
  row.eventType = "step_completed" ∨ row.eventType = "node_completed"

def addRow (dialect : Dialect) (serde : SerdeJson) (outputs : NodeOutputTexts)
    (row : EventRow) : NodeOutputTexts :=
  match rowOutput (dialect.deliver serde row.data) with
  | some (nodeId, output) => outputs.insert nodeId output
  | none => outputs

def getCompletedDagNodeOutputs (dialect : Dialect) (serde : SerdeJson)
    (answer : Except String (List EventRow)) : Except StoreError NodeOutputTexts :=
  match answer with
  | .error error => .error (.db ("Failed to get completed DAG node outputs: " ++ error))
  | .ok rows => .ok (rows.foldl (addRow dialect serde) ∅)

end SqlWorkflowStore

namespace SqlWorkflowEventStore

def parseData (serde : SerdeJson) : Value → Members
  | .string text => ((serde.fromStr text).bind Value.asObject).getD []
  | .object members => members
  | _ => []

/-- The output of one row: the named field of the document, or else the whole
document as text. -/
def rowOutput (serde : SerdeJson) (data : Value) : String :=
  match ((parseData serde data).get "node_output").bind Value.asStr with
  | some output => output
  | none => serde.toString data

def selectsEvent (row : EventRow) : Bool :=
  row.eventType = "node_completed" ∨ row.eventType = "node_skipped_prior_success"

def addRow (dialect : Dialect) (serde : SerdeJson) (outputs : NodeOutputTexts)
    (row : EventRow) : NodeOutputTexts :=
  match row.stepName with
  | some name =>
      if name = "" then outputs
      else outputs.insert name (rowOutput serde (dialect.deliver serde row.data))
  | none => outputs

def getCompletedDagNodeOutputs (dialect : Dialect) (serde : SerdeJson)
    (answer : Except String (List EventRow)) : Except StoreError NodeOutputTexts :=
  match answer with
  | .error error => .error (.db error)
  | .ok rows => .ok (rows.foldl (addRow dialect serde) ∅)

end SqlWorkflowEventStore

/-! ## The events of the executor -/

structure NodeCompletedPayload where
  durationMs : Nat
  kind : Option String := none
  nodeOutput : String
  costUsd : Option Value := none
  stopReason : Option Value := none
  numTurns : Option Value := none
  modelUsage : Option Value := none
  deriving DecidableEq, Repr

def NodeCompletedPayload.data (payload : NodeCompletedPayload) : Members :=
  let optional (key : String) (value : Option Value) : Members :=
    value.toList.map fun present => (key, present)
  [("duration_ms", .number (.posInt payload.durationMs))] ++
    optional "type" (payload.kind.map Value.string) ++
    [("node_output", .string payload.nodeOutput)] ++
    optional "cost_usd" payload.costUsd ++ optional "stop_reason" payload.stopReason ++
    optional "num_turns" payload.numTurns ++ optional "model_usage" payload.modelUsage

/-- An event of the executor. It never writes the event type that only the
second reader knows. -/
inductive ExecutorEvent
  | nodeCompleted (nodeId : String) (payload : NodeCompletedPayload)
  | other (eventType : WorkflowEventType) (stepName : Option String) (data : Members)
      (differs : eventType ≠ .nodeCompleted ∧ eventType ≠ .nodeSkippedPriorSuccess)

namespace ExecutorEvent

def create (workflowRunId : String) : ExecutorEvent → CreateWorkflowEventData
  | .nodeCompleted nodeId payload =>
      { workflowRunId, eventType := .nodeCompleted, stepName := some nodeId,
        data := some payload.data }
  | .other eventType stepName data _ =>
      { workflowRunId, eventType, stepName, data := some data }

def completedNode : ExecutorEvent → Option (String × String)
  | .nodeCompleted nodeId payload => some (nodeId, payload.nodeOutput)
  | .other .. => none

end ExecutorEvent

structure RunEvent where
  workflowRunId : String
  event : ExecutorEvent
  clock : Instant := 0

/-- The table after the executors of several runs have written their events. -/
def recordEvents (database : SqlDatabase) (table : EventTable) (events : List RunEvent) :
    EventTable :=
  events.foldl
    (fun table written =>
      SqlWorkflowStore.createWorkflowEvent database { clock := written.clock } table
        (written.event.create written.workflowRunId))
    table

def reportedOutput (workflowRunId nodeId : String) (written : RunEvent) : Option String :=
  match written.event.completedNode with
  | some (node, output) =>
      if written.workflowRunId = workflowRunId ∧ node = nodeId then some output else none
  | none => none

def latestOutput (events : List RunEvent) (workflowRunId nodeId : String) : Option String :=
  (events.filterMap (reportedOutput workflowRunId nodeId)).getLast?

/-! ## What is stored of these events -/

namespace RunEvent

def row (written : RunEvent) : EventRow where
  workflowRunId := written.workflowRunId
  eventType := (written.event.create written.workflowRunId).eventType.asStr
  stepIndex := none
  stepName := (written.event.create written.workflowRunId).stepName
  data := (written.event.create written.workflowRunId).data.map Value.object
  createdAt := wholeSecond written.clock

end RunEvent

theorem stepIndex_create (workflowRunId : String) (event : ExecutorEvent) :
    (event.create workflowRunId).stepIndex = none := by
  cases event with
  | nodeCompleted nodeId payload => rfl
  | other eventType stepName data differs => rfl

theorem createWorkflowEvent_sqlite {database : SqlDatabase} (sqlite : database.dialect = .sqlite)
    (table : EventTable) (written : RunEvent) :
    SqlWorkflowStore.createWorkflowEvent database { clock := written.clock } table
      (written.event.create written.workflowRunId) = table ++ [written.row] := by
  have taken : database.TakesEvent (written.event.create written.workflowRunId) := by
    intro postgres
    rw [sqlite] at postgres
    cases postgres
  have same : ∀ text, (database.comparedText text).getD text = text := by
    intro text
    rw [SqlDatabase.comparedText, sqlite]
    rfl
  rw [SqlWorkflowStore.createWorkflowEvent]
  dsimp only
  rw [if_pos taken, sqlite]
  simp only [same, Option.map_id_fun', id]
  rcases written with ⟨run, event, clock⟩
  cases event with
  | nodeCompleted nodeId payload => rfl
  | other eventType stepName data differs => rfl

theorem createWorkflowEvent_postgres {database : SqlDatabase}
    (postgres : database.dialect = .postgres) (table : EventTable) (written : RunEvent) :
    SqlWorkflowStore.createWorkflowEvent database { clock := written.clock } table
      (written.event.create written.workflowRunId) = table := by
  apply if_neg
  intro taken
  have indexed := (taken postgres).2.1
  rw [stepIndex_create] at indexed
  cases indexed

theorem recordEvents_eq (database : SqlDatabase) (table : EventTable) (events : List RunEvent) :
    recordEvents database table events =
      match database.dialect with
      | .sqlite => table ++ events.map RunEvent.row
      | .postgres => table := by
  induction events generalizing table with
  | nil =>
      cases database.dialect with
      | sqlite => exact (List.append_nil table).symm
      | postgres => rfl
  | cons written rest induction =>
      change recordEvents database (SqlWorkflowStore.createWorkflowEvent _ _ table _) rest = _
      rw [induction]
      cases dialect : database.dialect with
      | sqlite => rw [createWorkflowEvent_sqlite dialect, List.map_cons, List.append_assoc,
          List.singleton_append]
      | postgres => rw [createWorkflowEvent_postgres dialect]

theorem mem_recordEvents {database : SqlDatabase} {events : List RunEvent} {row : EventRow} :
    row ∈ recordEvents database [] events ↔
      database.dialect = .sqlite ∧ ∃ written ∈ events, written.row = row := by
  rw [recordEvents_eq]
  cases database.dialect with
  | sqlite => simp
  | postgres => simp

theorem eventType_asStr_eq {left right : WorkflowEventType} (same : left.asStr = right.asStr) :
    left = right := by
  cases left <;> cases right <;> first | rfl | exact absurd same (by decide)

theorem eventType_asStr_ne_step (eventType : WorkflowEventType) :
    eventType.asStr ≠ "step_completed" := by
  cases eventType <;> decide

/-! ## What the readers make of these events -/

section Readers

variable {dialect : Dialect} {serde : SerdeJson}

/-- The document of a completed node names no node, so the run store reads
nothing from it. -/
theorem rowOutput_payload (payload : NodeCompletedPayload) :
    SqlWorkflowStore.rowOutput (dialect.deliver serde (some (.object payload.data))) = none := by
  cases dialect with
  | sqlite => rfl
  | postgres =>
      have absent : ∀ key, key = "nodeId" ∨ key = "node_id" →
          Value.get (.object payload.data) key = none := by
        intro key named
        refine Members.get_eq_none_of_not_mem_keys fun member => ?_
        simp only [NodeCompletedPayload.data, Members.keys, List.map_append, List.map_map,
          List.map_cons, List.map_nil, List.mem_append, List.mem_map, List.mem_cons,
          List.not_mem_nil, or_false, Function.comp_apply] at member
        rcases named with rfl | rfl <;> simp at member
      simp [Dialect.deliver, SqlWorkflowStore.rowOutput, absent]

theorem selectsEvent_row (written : RunEvent) :
    SqlWorkflowStore.selectsEvent written.row = written.event.completedNode.isSome ∧
      SqlWorkflowEventStore.selectsEvent written.row = written.event.completedNode.isSome := by
  rcases written with ⟨run, event, clock⟩
  cases event with
  | nodeCompleted nodeId payload => exact ⟨rfl, rfl⟩
  | other eventType stepName data differs =>
      have notNode : eventType.asStr ≠ "node_completed" := fun same =>
        differs.1 (@eventType_asStr_eq eventType .nodeCompleted same)
      have notPrior : eventType.asStr ≠ "node_skipped_prior_success" := fun same =>
        differs.2 (@eventType_asStr_eq eventType .nodeSkippedPriorSuccess same)
      have notStep := eventType_asStr_ne_step eventType
      constructor
      · simp [SqlWorkflowStore.selectsEvent, RunEvent.row, ExecutorEvent.create,
          ExecutorEvent.completedNode, notStep, notNode]
      · simp [SqlWorkflowEventStore.selectsEvent, RunEvent.row, ExecutorEvent.create,
          ExecutorEvent.completedNode, notNode, notPrior]

variable {database : SqlDatabase} {events : List RunEvent} {call : DbCall} {run : String}

theorem storeReader_eq_empty {rows : List EventRow}
    (answers : database.Answers call (recordEvents database [] events) run
      SqlWorkflowStore.selectsEvent (.ok rows)) :
    SqlWorkflowStore.getCompletedDagNodeOutputs database.dialect serde (.ok rows) = .ok ∅ := by
  rw [SqlWorkflowStore.getCompletedDagNodeOutputs, Except.ok.injEq]
  refine List.foldlRecOn (motive := fun outputs => outputs = ∅) _ _ rfl ?_
  rintro outputs rfl row member
  rcases answers.mem_rows.mp member with ⟨stored, -, selected⟩
  rcases mem_recordEvents.mp stored with ⟨-, ⟨run, event, clock⟩, -, rfl⟩
  cases event with
  | nodeCompleted nodeId payload =>
      simp only [SqlWorkflowStore.addRow, RunEvent.row, ExecutorEvent.create, Option.map_some,
        rowOutput_payload]
  | other eventType stepName data differs =>
      rw [(selectsEvent_row _).1] at selected
      cases selected

theorem eventStore_rowOutput_payload (payload : NodeCompletedPayload)
    (parses : serde.fromStr (serde.toString (.object payload.data)) =
      some (.object payload.data)) :
    SqlWorkflowEventStore.rowOutput serde
      (dialect.deliver serde (some (.object payload.data))) = payload.nodeOutput := by
  have found : Members.get payload.data "node_output" = some (.string payload.nodeOutput) := by
    rcases payload with ⟨duration, kind, output, cost, stop, turns, usage⟩
    cases kind <;> simp [NodeCompletedPayload.data, Members.get_cons]
  cases dialect with
  | postgres =>
      simp [SqlWorkflowEventStore.rowOutput, Dialect.deliver, SqlWorkflowEventStore.parseData,
        found, Value.asStr]
  | sqlite =>
      simp [SqlWorkflowEventStore.rowOutput, Dialect.deliver, SqlWorkflowEventStore.parseData,
        parses, Value.asObject, found, Value.asStr]

def rowReports (dialect : Dialect) (serde : SerdeJson) (nodeId : String) (row : EventRow) :
    Option String :=
  if row.stepName = some nodeId then
    some (SqlWorkflowEventStore.rowOutput serde (dialect.deliver serde row.data))
  else none

theorem lookup_addRow (outputs : NodeOutputTexts) (row : EventRow) {nodeId : String}
    (nonempty : nodeId ≠ "") :
    (SqlWorkflowEventStore.addRow dialect serde outputs row).lookup nodeId =
      (rowReports dialect serde nodeId row).or (outputs.lookup nodeId) := by
  rw [SqlWorkflowEventStore.addRow, rowReports]
  cases row.stepName with
  | none => rfl
  | some name =>
      dsimp only
      by_cases same : name = nodeId
      · rw [same, if_neg nonempty, if_pos rfl, AList.lookup_insert]
        rfl
      · rw [if_neg fun equal => same (Option.some.inj equal)]
        split
        · rfl
        · exact AList.lookup_insert_ne (Ne.symm same)

theorem lookup_foldl_addRow (rows : List EventRow) {nodeId : String} (nonempty : nodeId ≠ "") :
    (rows.foldl (SqlWorkflowEventStore.addRow dialect serde) ∅).lookup nodeId =
      (rows.filterMap (rowReports dialect serde nodeId)).getLast? := by
  induction rows using List.reverseRecOn with
  | nil => exact AList.lookup_empty nodeId
  | append_singleton front row induction =>
      rw [List.foldl_append, List.foldl_cons, List.foldl_nil, lookup_addRow _ _ nonempty,
        induction, List.filterMap_append, List.filterMap_cons, List.filterMap_nil]
      cases rowReports dialect serde nodeId row with
      | none => rw [Option.none_or, List.append_nil]
      | some output => rw [Option.some_or, List.getLast?_concat]

end Readers

/-- What of a node's completions in a run is read back: an output of the latest second in
which there was one. Postgres has stored none. -/
def Restores (database : SqlDatabase) (events : List RunEvent) (run nodeId : String) :
    Option String → Prop
  | none =>
      database.dialect = .postgres ∨
        ∀ written ∈ events, reportedOutput run nodeId written = none
  | some output =>
      database.dialect = .sqlite ∧ ∃ written ∈ events,
        reportedOutput run nodeId written = some output ∧
          ∀ other ∈ events, (reportedOutput run nodeId other).isSome = true →
            wholeSecond other.clock ≤ wholeSecond written.clock

section Restored

variable {database : SqlDatabase} {serde : SerdeJson} {events : List RunEvent} {call : DbCall}
  {run : String}

def Parses (serde : SerdeJson) (events : List RunEvent) : Prop :=
  ∀ written ∈ events, ∀ nodeId payload, written.event = .nodeCompleted nodeId payload →
    serde.fromStr (serde.toString (.object payload.data)) = some (.object payload.data)

theorem rowReports_row (sqlite : database.dialect = .sqlite) (parses : Parses serde events)
    {written : RunEvent} (member : written ∈ events)
    (ofRun : database.textIs run written.row.workflowRunId = true)
    (selected : SqlWorkflowEventStore.selectsEvent written.row = true) (nodeId : String) :
    rowReports database.dialect serde nodeId written.row = reportedOutput run nodeId written := by
  have same : run = written.workflowRunId := by
    rw [SqlDatabase.textIs, SqlDatabase.comparedText, sqlite] at ofRun
    exact Option.some.inj (of_decide_eq_true ofRun)
  rcases written with ⟨own, event, clock⟩
  cases same
  cases event with
  | other eventType stepName data differs =>
      rw [(selectsEvent_row _).2] at selected
      cases selected
  | nodeCompleted node payload =>
      have output := @eventStore_rowOutput_payload database.dialect serde payload
        (parses _ member node payload rfl)
      simp [rowReports, RunEvent.row, ExecutorEvent.create, reportedOutput,
        ExecutorEvent.completedNode, output]

theorem selected_of_reported {nodeId : String} {written : RunEvent}
    (reported : (reportedOutput run nodeId written).isSome = true) :
    written.workflowRunId = run ∧
      SqlWorkflowEventStore.selectsEvent written.row = true := by
  rw [(selectsEvent_row written).2]
  rw [reportedOutput] at reported
  cases completed : written.event.completedNode with
  | none =>
      rw [completed] at reported
      cases reported
  | some node =>
      rw [completed] at reported
      dsimp only at reported
      split at reported
      · next both => exact ⟨both.1, rfl⟩
      · cases reported

theorem restores_rows (parses : Parses serde events) {rows : List EventRow}
    (answers : database.Answers call (recordEvents database [] events) run
      SqlWorkflowEventStore.selectsEvent (.ok rows)) {nodeId : String} (nonempty : nodeId ≠ "") :
    Restores database events run nodeId
      ((rows.foldl (SqlWorkflowEventStore.addRow database.dialect serde) ∅).lookup nodeId) := by
  rw [lookup_foldl_addRow rows nonempty]
  have reports : ∀ written ∈ events, database.dialect = .sqlite →
      written.row ∈ rows → rowReports database.dialect serde nodeId written.row =
        reportedOutput run nodeId written := by
    intro written member sqlite inRows
    rcases answers.mem_rows.mp inRows with ⟨-, ofRun, selected⟩
    exact rowReports_row sqlite parses member ofRun selected nodeId
  have listed : ∀ written ∈ events, database.dialect = .sqlite →
      (reportedOutput run nodeId written).isSome = true → written.row ∈ rows := by
    intro written member sqlite reported
    rcases selected_of_reported reported with ⟨ofRun, selected⟩
    refine answers.mem_rows.mpr ⟨mem_recordEvents.mpr ⟨sqlite, written, member, rfl⟩, ?_, selected⟩
    rw [SqlDatabase.textIs, SqlDatabase.comparedText, sqlite]
    exact decide_eq_true (congrArg some ofRun.symm)
  cases found : (rows.filterMap (rowReports database.dialect serde nodeId)).getLast? with
  | none =>
      by_cases sqlite : database.dialect = .sqlite
      · right
        intro written member
        by_contra reported
        have present := Option.ne_none_iff_isSome.mp reported
        have inRows := listed written member sqlite present
        rw [List.getLast?_eq_none_iff, List.filterMap_eq_nil_iff] at found
        rw [← reports written member sqlite inRows, found _ inRows] at present
        cases present
      · left
        cases dialect : database.dialect with
        | sqlite => exact absurd dialect sqlite
        | postgres => rfl
  | some output =>
      have ascending : Ascending EventRow.createdAt rows := by
        cases answers with
        | rows executed typed selects => exact selects.ascending
      rcases ascending.getLast?_filterMap found with ⟨row, inRows, gives, largest⟩
      rcases mem_recordEvents.mp (answers.mem_rows.mp inRows).1 with
        ⟨sqlite, written, member, rfl⟩
      refine ⟨sqlite, written, member, ?_, ?_⟩
      · rw [← reports written member sqlite inRows]
        exact gives
      · intro other otherMember reported
        have otherRow := listed other otherMember sqlite reported
        apply largest _ otherRow
        rw [reports other otherMember sqlite otherRow]
        exact reported

/-- The event store restores for every completed node an output of the latest second, from
all that SQLite has stored; a read fails exactly if the database does not execute it. -/
theorem eventStore_restores (parses : Parses serde events)
    {answer : Except String (List EventRow)}
    (answers : database.Answers call (recordEvents database [] events) run
      SqlWorkflowEventStore.selectsEvent answer) :
    match SqlWorkflowEventStore.getCompletedDagNodeOutputs database.dialect serde answer with
    | .error _ => ¬database.Executes call run
    | .ok outputs => database.Executes call run ∧
        ∀ nodeId, nodeId ≠ "" →
          Restores database events run nodeId (outputs.lookup nodeId) := by
  have executes := answers.executes_iff
  cases answer with
  | error error =>
      intro executed
      rcases executes.mp executed with ⟨rows, wrong⟩
      cases wrong
  | ok rows => exact ⟨executes.mpr ⟨rows, rfl⟩, fun nodeId => restores_rows parses answers⟩

end Restored

theorem completedDagNodeOutputs_eq_latest_iff (database : SqlDatabase) (serde : SerdeJson)
    (call : DbCall) (events : List RunEvent) (workflowRunId : String) :
    (∀ answer reference,
      database.Answers call (recordEvents database [] events) workflowRunId
        SqlWorkflowStore.selectsEvent answer →
      database.Answers call (recordEvents database [] events) workflowRunId
        SqlWorkflowEventStore.selectsEvent reference →
      ∃ outputs others,
        SqlWorkflowStore.getCompletedDagNodeOutputs database.dialect serde answer = .ok outputs ∧
        (∀ nodeId, outputs.lookup nodeId = latestOutput events workflowRunId nodeId) ∧
        SqlWorkflowEventStore.getCompletedDagNodeOutputs database.dialect serde reference =
          .ok others ∧
        ∀ nodeId, outputs.lookup nodeId = others.lookup nodeId) ↔
    (database.Executes call workflowRunId ∧
      ∀ written ∈ events, written.workflowRunId = workflowRunId →
        written.event.completedNode = none) := by
  constructor
  · intro restores
    rcases database.exists_answers call (recordEvents database [] events) workflowRunId
      SqlWorkflowStore.selectsEvent with ⟨answer, answers⟩
    rcases database.exists_answers call (recordEvents database [] events) workflowRunId
      SqlWorkflowEventStore.selectsEvent with ⟨reference, others⟩
    rcases restores answer reference answers others with ⟨outputs, -, read, latest, -⟩
    have executes : database.Executes call workflowRunId := by
      apply answers.executes_iff.mpr
      cases answer with
      | error error => cases read
      | ok rows => exact ⟨rows, rfl⟩
    rcases answers.executes_iff.mp executes with ⟨rows, rfl⟩
    rw [storeReader_eq_empty answers, Except.ok.injEq] at read
    subst outputs
    refine ⟨executes, fun written member sameRun => ?_⟩
    cases completed : written.event.completedNode with
    | none => rfl
    | some node =>
        have nothing := latest node.1
        rw [AList.lookup_empty, latestOutput, eq_comm, List.getLast?_eq_none_iff,
          List.filterMap_eq_nil_iff] at nothing
        have unreported := nothing written member
        simp [reportedOutput, completed, sameRun] at unreported
  · rintro ⟨executes, incomplete⟩ answer reference answers others
    rcases answers.executes_iff.mp executes with ⟨rows, rfl⟩
    rcases others.executes_iff.mp executes with ⟨referenceRows, rfl⟩
    have unreported : ∀ nodeId, latestOutput events workflowRunId nodeId = none := by
      intro nodeId
      rw [latestOutput, List.getLast?_eq_none_iff, List.filterMap_eq_nil_iff]
      intro written member
      by_cases sameRun : written.workflowRunId = workflowRunId
      · simp [reportedOutput, incomplete written member sameRun]
      · cases completed : written.event.completedNode <;>
          simp [reportedOutput, completed, sameRun]
    have unselected : referenceRows = [] := by
      rw [List.eq_nil_iff_forall_not_mem]
      intro row inRows
      rcases others.mem_rows.mp inRows with ⟨stored, ofRun, selected⟩
      rcases mem_recordEvents.mp stored with ⟨sqlite, written, member, rfl⟩
      rw [SqlDatabase.textIs, SqlDatabase.comparedText, sqlite] at ofRun
      have sameRun : workflowRunId = written.workflowRunId :=
        Option.some.inj (of_decide_eq_true ofRun)
      rw [(selectsEvent_row written).2, incomplete written member sameRun.symm] at selected
      cases selected
    refine ⟨∅, ∅, storeReader_eq_empty answers, ?_, ?_, fun _ => rfl⟩
    · intro nodeId
      rw [unreported, AList.lookup_empty]
    · rw [unselected]
      rfl

def oneCompletion : List RunEvent :=
  [{ workflowRunId := "run"
     event := .nodeCompleted "build" { durationMs := 5, nodeOutput := "ok" } }]

def oneCompletionSerde : SerdeJson where
  toString _ := "\x7b\"duration_ms\":5,\"node_output\":\"ok\"\x7d"
  fromStr _ := some (.object [("duration_ms", .number (.posInt 5)),
    ("node_output", .string "ok")])

def sqliteDatabase : SqlDatabase where
  dialect := .sqlite
  uuids := uuidCrate

theorem parses_oneCompletion : Parses oneCompletionSerde oneCompletion := by
  rintro _ (_ | ⟨_, ⟨⟩⟩) _ _ ⟨⟩
  rfl

theorem eventStore_restores_build :
    ∃ outputs, SqlWorkflowEventStore.getCompletedDagNodeOutputs .sqlite oneCompletionSerde
        (.ok (recordEvents sqliteDatabase [] oneCompletion)) = .ok outputs ∧
      Restores sqliteDatabase oneCompletion "run" "build" (outputs.lookup "build") := by
  have answers : sqliteDatabase.Answers { clock := 0 }
      (recordEvents sqliteDatabase [] oneCompletion) "run" SqlWorkflowEventStore.selectsEvent
      (.ok (recordEvents sqliteDatabase [] oneCompletion)) := by
    refine .rows rfl (fun postgres => by cases postgres) ⟨_, ?_, List.pairwise_singleton _ _, rfl⟩
    exact List.Perm.refl _
  exact ⟨_, rfl, (eventStore_restores parses_oneCompletion answers).2 "build" (by decide)⟩

theorem completedDagNodeOutputs_lost :
    ¬∀ answer, sqliteDatabase.Answers { clock := 0 }
        (recordEvents sqliteDatabase [] oneCompletion) "run" SqlWorkflowStore.selectsEvent
        answer →
      ∃ outputs, SqlWorkflowStore.getCompletedDagNodeOutputs .sqlite oneCompletionSerde answer =
          .ok outputs ∧
        ∀ nodeId, outputs.lookup nodeId = latestOutput oneCompletion "run" nodeId := by
  intro restores
  rcases sqliteDatabase.exists_answers { clock := 0 }
    (recordEvents sqliteDatabase [] oneCompletion) "run" SqlWorkflowStore.selectsEvent with
    ⟨answer, answers⟩
  rcases restores answer answers with ⟨outputs, read, latest⟩
  rcases answers.executes_iff.mp ⟨rfl, fun postgres => by cases postgres⟩ with ⟨rows, rfl⟩
  have nothing := @storeReader_eq_empty oneCompletionSerde sqliteDatabase _ _ _ _ answers
  have emptied : outputs = ∅ := Except.ok.inj (read.symm.trans nothing)
  rw [emptied] at latest
  exact absurd (latest "build") (by decide)

end HarnessAgent
