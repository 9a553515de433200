import HarnessAgent.Executor.DagWorkflow
import HarnessAgent.Store.RunStatus
import HarnessAgent.Store.WorkflowEvents

/-! # What the executor publishes

At its end the executor reads the status of the run, writes the outcome and announces it.
Other clients may change the run at any time, also between the read and the write, and the
result of the write is not looked at.
-/

namespace HarnessAgent

open DagWorkflow SqlWorkflowStore

inductive Announcement
  | completed
  | failed (message : String)
  deriving DecidableEq, Repr

def Announcement.status : Announcement → WorkflowRunStatus
  | .completed => .completed
  | .failed _ => .failed

/-- An executor among the clients of a store: what happens in the table before each of its
accesses, and how these go. The requests include those of its own nodes. -/
structure SharedRun (Client : Type) extends SqlDatabase where
  id : String
  environment : Environment
  table : RunTable
  events : EventTable := []
  beforeLayerRead : Nat → List (RunRequest Client) := fun _ => []
  layerRead : Nat → DbCall
  beforeLastRead : List (RunRequest Client) := []
  lastRead : DbCall
  beforeWrite : List (RunRequest Client) := []
  write : DbCall
  record : DbCall
  durationMs : Nat := 0

/-- What the executor leaves behind: the result of its own write, with the table after it,
and what it has announced. -/
structure Publication where
  written : Option (Except StoreError Unit) := none
  table : RunTable
  emitted : List Announcement := []
  events : EventTable

namespace SharedRun

variable {Client : Type} (shared : SharedRun Client)

def tableAfter : Nat → RunTable
  | 0 => shared.table
  | index + 1 =>
      RunHistory.run shared.dialect (tableAfter index) (shared.beforeLayerRead index)

def tableAtLastRead (layerCount : Nat) : RunTable :=
  RunHistory.run shared.dialect (shared.tableAfter layerCount) shared.beforeLastRead

def tableAtWrite (layerCount : Nat) : RunTable :=
  RunHistory.run shared.dialect (shared.tableAtLastRead layerCount) shared.beforeWrite

def orchestrated (layerCount : Nat) : Environment :=
  { shared.environment with
    statusAfterLayer := fun index =>
      getWorkflowRunStatus (shared.layerRead index) (shared.tableAfter (index + 1)) shared.id
    statusAtEnd :=
      getWorkflowRunStatus shared.lastRead (shared.tableAtLastRead layerCount) shared.id }

def publish (table : RunTable) : WorkflowEnding → Publication
  | .stopped _ => { table, events := shared.events }
  | .failed message =>
      let outcome := failWorkflowRun shared.dialect shared.write table shared.id message
      { written := some outcome.2, table := outcome.1, emitted := [.failed message],
        events := shared.events }
  | .completed metadata =>
      let outcome :=
        completeWorkflowRun shared.dialect shared.write table shared.id (some metadata)
      { written := some outcome.2, table := outcome.1, emitted := [.completed],
        events := createWorkflowEvent shared.toSqlDatabase shared.record shared.events
          { workflowRunId := shared.id, eventType := .workflowCompleted,
            data := some [("duration_ms", .number (.posInt shared.durationMs))] } }

def execute (workflowName : String) (nodes : List DagNode) (prior : PriorNodes) :
    Except LayerPanic (WorkflowResult × Publication) := do
  let layers ← buildTopologicalLayers nodes
  let result ← executeDagWorkflow (shared.orchestrated layers.length) workflowName nodes prior
  return (result, shared.publish (shared.tableAtWrite layers.length) result.ending)

structure Truthful (publication : Publication) : Prop where
  emitted : ∀ announcement ∈ publication.emitted, publication.written = some (.ok ()) ∧
    storedStatus publication.table shared.id = some announcement.status
  recorded : publication.events ≠ shared.events → publication.written = some (.ok ()) ∧
    storedStatus publication.table shared.id = some .completed

/-- A read of the status stops the executor, or the run is still running when it is written
and the database executes the statement. -/
def Undisturbed (layerCount : Nat) : Prop :=
  (∃ index < layerCount,
    stops (getWorkflowRunStatus (shared.layerRead index) (shared.tableAfter (index + 1))
      shared.id) = true) ∨
  stops (getWorkflowRunStatus shared.lastRead (shared.tableAtLastRead layerCount) shared.id) =
    true ∨
  shared.write.failure = none ∧
    storedStatus (shared.tableAtWrite layerCount) shared.id = some .running

end SharedRun

namespace DagWorkflow

variable {environment : Environment} {prior : PriorNodes}

theorem layerLoop_stopped_iff {layers : List (List DagNode)} {index : Nat} {progress : Progress} :
    (layerLoop environment prior index layers progress).2 = none ↔
      ∀ position < layers.length,
        stops (environment.statusAfterLayer (index + position)) = false := by
  induction layers generalizing index progress with
  | nil => simp [layerLoop]
  | cons layer rest later =>
      rw [layerLoop]
      cases stopped : stops (environment.statusAfterLayer index) with
      | true =>
          simp only [if_true, reduceCtorEq, false_iff]
          intro none
          have here := none 0 (by simp)
          rw [Nat.add_zero, stopped] at here
          cases here
      | false =>
          simp only [Bool.false_eq_true, if_false]
          rw [later]
          constructor
          · intro others position bound
            cases position with
            | zero => exact stopped
            | succ position =>
                have there := others position (by simpa using bound)
                rwa [show index + (position + 1) = index + 1 + position by omega]
          · intro all position bound
            have there := all (position + 1) (by simpa using bound)
            rwa [show index + 1 + position = index + (position + 1) by omega]

end DagWorkflow

theorem finishWorkflow_not_stopped {environment : Environment} {workflowName : String}
    {nodes : List DagNode} {progress : Progress}
    (continues : stops environment.statusAtEnd = false) :
    (∃ message, (finishWorkflow environment workflowName nodes progress).ending =
      .failed message) ∨
    ∃ metadata, (finishWorkflow environment workflowName nodes progress).ending =
      .completed metadata := by
  rw [finishWorkflow]
  simp only [continues, Bool.false_eq_true, if_false]
  split
  · exact Or.inl ⟨_, rfl⟩
  · split
    · exact Or.inl ⟨_, rfl⟩
    · exact Or.inr ⟨_, rfl⟩

namespace SharedRun

variable {Client : Type} {shared : SharedRun Client}

theorem truthful_stopped (table : RunTable) (notice : Option String) :
    shared.Truthful (shared.publish table (.stopped notice)) := by
  constructor
  · intro announcement member
    cases member
  · intro recorded
    exact absurd rfl recorded

theorem truthful_failed_iff {table : RunTable} {message : String} :
    shared.Truthful (shared.publish table (.failed message)) ↔
      shared.write.failure = none ∧ storedStatus table shared.id = some .running := by
  constructor
  · intro truthful
    have written := (truthful.emitted _ (List.mem_singleton_self _)).1
    exact failWorkflowRun_ok_iff.mp (Option.some.inj written)
  · intro running
    constructor
    · intro announcement member
      rcases List.mem_singleton.mp member with rfl
      refine ⟨congrArg some (failWorkflowRun_ok_iff.mpr running), ?_⟩
      exact storedStatus_query running.1 running.2 (fun row => by simp [failUpdate])
        (fun row => rfl)
    · intro recorded
      exact absurd rfl recorded

theorem truthful_completed_iff {table : RunTable} {metadata : Members} :
    shared.Truthful (shared.publish table (.completed metadata)) ↔
      shared.write.failure = none ∧ storedStatus table shared.id = some .running := by
  constructor
  · intro truthful
    have written := (truthful.emitted _ (List.mem_singleton_self _)).1
    exact completeWorkflowRun_ok_iff.mp (Option.some.inj written)
  · intro running
    have wrote : (shared.publish table (.completed metadata)).written = some (.ok ()) ∧
        storedStatus (shared.publish table (.completed metadata)).table shared.id =
          some .completed := by
      refine ⟨congrArg some (completeWorkflowRun_ok_iff.mpr running), ?_⟩
      exact storedStatus_query running.1 running.2 (fun row => by simp [completeUpdate])
        (fun row => rfl)
    constructor
    · intro announcement member
      rcases List.mem_singleton.mp member with rfl
      exact wrote
    · intro recorded
      exact wrote

/-- The executor announces only what it has written exactly when it is stopped by a read or
finds the run running at the write. -/
theorem execute_truthful_iff {workflowName : String} {nodes : List DagNode} {prior : PriorNodes}
    {layers : List (List DagNode)} {result : WorkflowResult} {publication : Publication}
    (built : buildTopologicalLayers nodes = .ok layers)
    (ran : shared.execute workflowName nodes prior = .ok (result, publication)) :
    shared.Truthful publication ↔ shared.Undisturbed layers.length := by
  have whole := executeDagWorkflow_of_layers (shared.orchestrated layers.length) workflowName prior
    built
  rw [execute, built] at ran
  change (do
    let result ← executeDagWorkflow (shared.orchestrated layers.length) workflowName nodes prior
    return (result, shared.publish (shared.tableAtWrite layers.length) result.ending)) = _ at ran
  rw [whole] at ran
  cases ran
  have reads := @layerLoop_stopped_iff (shared.orchestrated layers.length) prior layers 0
    { nodeOutputs := prepopulate nodes prior }
  simp only [Nat.zero_add] at reads
  generalize layerLoop (shared.orchestrated layers.length) prior 0 layers
    { nodeOutputs := prepopulate nodes prior } = reached at reads
  rcases reached with ⟨progress, stopped⟩
  cases stopped with
  | some index =>
      have somewhere : ¬∀ position < layers.length,
          stops ((shared.orchestrated layers.length).statusAfterLayer position) = false := by
        rw [← reads]
        simp
      push Not at somewhere
      rcases somewhere with ⟨position, bound, stopping⟩
      have stoppedThere : stops ((shared.orchestrated layers.length).statusAfterLayer position) = true :=
        Bool.eq_true_of_not_eq_false stopping
      exact iff_of_true (truthful_stopped _ _) (Or.inl ⟨position, bound, stoppedThere⟩)
  | none =>
      have continues := reads.mp rfl
      have nowhere : ¬∃ index < layers.length, stops (getWorkflowRunStatus (shared.layerRead index)
          (shared.tableAfter (index + 1)) shared.id) = true := by
        rintro ⟨index, bound, stopping⟩
        have continuing := continues index bound
        change stops (getWorkflowRunStatus (shared.layerRead index)
          (shared.tableAfter (index + 1)) shared.id) = false at continuing
        rw [stopping] at continuing
        cases continuing
      rw [Undisturbed, or_iff_right nowhere, concludeWorkflow]
      cases last : stops (getWorkflowRunStatus shared.lastRead
          (shared.tableAtLastRead layers.length) shared.id) with
      | true =>
          have skipped : (finishWorkflow (shared.orchestrated layers.length) workflowName nodes
              progress).ending = .stopped none := by
            rw [finishWorkflow]
            simp only [show stops (shared.orchestrated layers.length).statusAtEnd = true from last,
              if_true]
          rw [skipped]
          exact iff_of_true (truthful_stopped _ _) (Or.inl rfl)
      | false =>
          rw [or_iff_right Bool.false_ne_true]
          rcases @finishWorkflow_not_stopped (shared.orchestrated layers.length) workflowName nodes
            progress last with ⟨message, failed⟩ | ⟨metadata, completed⟩
          · rw [failed]
            exact truthful_failed_iff
          · rw [completed]
            exact truthful_completed_iff

end SharedRun

namespace Announcing

/-- Two nodes complete, and the run is changed in some way before it is written. -/
def shared (beforeWrite : List (RunRequest Nat)) : SharedRun Nat where
  dialect := .sqlite
  uuids := uuidCrate
  id := "r"
  environment := answering fun _ => false
  table := RunHistory.raceTable
  layerRead := fun _ => { clock := 0 }
  lastRead := { clock := 0 }
  beforeWrite := beforeWrite
  write := { clock := 0 }
  record := { clock := 0 }

theorem built : buildTopologicalLayers independent = .ok [independent] := by decide

def cancellation : List (RunRequest Nat) :=
  [{ client := 2, operation := .cancel "r", call := { clock := 0 } }]

end Announcing

open Announcing

theorem execute_truthful_alone :
    ∃ result publication, (shared []).execute "w" independent ∅ = .ok (result, publication) ∧
      publication.emitted = [.completed] ∧ (shared []).Truthful publication := by
  refine ⟨_, _, rfl, rfl, ?_⟩
  exact (SharedRun.execute_truthful_iff built rfl).mpr (Or.inr (Or.inr ⟨rfl, by decide⟩))

/-- Another client cancels the run after the last read. It stays cancelled and is announced
as completed. -/
theorem execute_untruthful :
    ∃ result publication,
      (shared cancellation).execute "w" independent ∅ = .ok (result, publication) ∧
      publication.emitted = [.completed] ∧
      publication.events.map (·.eventType) = ["workflow_completed"] ∧
      publication.written = some (.error (.db
        "Workflow run not found or not in running state (id: r)")) ∧
      storedStatus publication.table "r" = some .cancelled ∧
      ¬(shared cancellation).Truthful publication := by
  refine ⟨_, _, rfl, rfl, rfl, by decide, by decide, ?_⟩
  intro truthful
  have written := (truthful.emitted _ (List.mem_singleton_self _)).1
  revert written
  decide

end HarnessAgent
