import HarnessAgent.Foundation.EventRun
import HarnessAgent.Foundation.Json
import Mathlib.Data.List.Induction

/-! # Sessions of nodes

A node can go on with the session of an earlier run. The session is kept under the
workflow, the node, a scope and the provider; deleting sessions may leave some of
these open.
-/

namespace HarnessAgent

namespace NodeSessions

structure WorkflowNodeSessionKey where
  workflowName : String
  nodeId : String
  scopeKey : String
  provider : String
  deriving DecidableEq

structure UpsertNodeSessionParams where
  workflowName : String
  nodeId : String
  scopeKey : String
  provider : String
  providerSessionId : String
  lastRunId : Option String
  deriving DecidableEq

def UpsertNodeSessionParams.key (params : UpsertNodeSessionParams) : WorkflowNodeSessionKey where
  workflowName := params.workflowName
  nodeId := params.nodeId
  scopeKey := params.scopeKey
  provider := params.provider

structure DeleteSessionsFilter where
  workflowName : String
  scopeKey : Option String
  nodeId : Option String
  provider : Option String

/-- What a filter leaves open matches everything. -/
def DeleteSessionsFilter.includes (filter : DeleteSessionsFilter) (key : WorkflowNodeSessionKey) :
    Bool :=
  filter.workflowName = key.workflowName && filter.scopeKey.all (· = key.scopeKey) &&
    filter.nodeId.all (· = key.nodeId) && filter.provider.all (· = key.provider)

structure WorkflowNodeSession where
  workflowName : String
  nodeId : String
  scopeKey : String
  provider : String
  providerSessionId : String
  lastRunId : Option String
  createdAt : String
  updatedAt : String
  deriving DecidableEq

/-- What was saved of a session; its timestamps are those of the store. -/
def WorkflowNodeSession.params (session : WorkflowNodeSession) : UpsertNodeSessionParams where
  workflowName := session.workflowName
  nodeId := session.nodeId
  scopeKey := session.scopeKey
  provider := session.provider
  providerSessionId := session.providerSessionId
  lastRunId := session.lastRunId

def WorkflowNodeSession.key (session : WorkflowNodeSession) : WorkflowNodeSessionKey :=
  session.params.key

inductive Call
  | upsert (params : UpsertNodeSessionParams)
  | delete (filter : DeleteSessionsFilter)
  | get (key : WorkflowNodeSessionKey)

inductive Answer
  | upserted
  | deleted (count : Nat)
  | found (session : Option WorkflowNodeSession)

def Call.effect (key : WorkflowNodeSessionKey) (before : Option UpsertNodeSessionParams) :
    Call → Option UpsertNodeSessionParams
  | .upsert params => if params.key = key then some params else before
  | .delete filter => if filter.includes key then none else before
  | .get _ => before

def saved (calls : List Call) (key : WorkflowNodeSessionKey) : Option UpsertNodeSessionParams :=
  calls.foldl (Call.effect key) none

def Remembers (expected : Option UpsertNodeSessionParams) (answer : Except String Answer) : Prop :=
  ∃ session, answer = .ok (.found session) ∧ session.map WorkflowNodeSession.params = expected

def IsMap {σ : Type} (perform : σ → Call → σ × Except String Answer) (start : σ)
    (calls : List Call) : Prop :=
  ∀ before key after, calls = before ++ .get key :: after →
    Remembers (saved before key)
      (perform (EventRun.run (fun state call => (perform state call).1) start before)
        (.get key)).2

structure SqlWorkflowStore (δ : Type) where
  database : δ

namespace SqlWorkflowStore

variable {δ : Type}

def getWorkflowNodeSession (_ : SqlWorkflowStore δ) (_ : WorkflowNodeSessionKey) :
    Except String (Option WorkflowNodeSession) :=
  .ok none

def upsertWorkflowNodeSession (_ : SqlWorkflowStore δ) (_ : UpsertNodeSessionParams) :
    Except String Unit :=
  .ok ()

def deleteWorkflowNodeSessions (_ : SqlWorkflowStore δ) (_ : DeleteSessionsFilter) :
    Except String Nat :=
  .ok 0

def perform (store : SqlWorkflowStore δ) : Call → SqlWorkflowStore δ × Except String Answer
  | .upsert params => (store, (store.upsertWorkflowNodeSession params).map fun _ => .upserted)
  | .delete filter => (store, (store.deleteWorkflowNodeSessions filter).map .deleted)
  | .get key => (store, (store.getWorkflowNodeSession key).map .found)

theorem isMap_iff (store : SqlWorkflowStore δ) (calls : List Call) :
    IsMap perform store calls ↔
      ∀ before key after, calls = before ++ .get key :: after → saved before key = none := by
  constructor
  · intro isMap before key after split
    rcases isMap before key after split with ⟨session, answer, same⟩
    cases answer
    exact same.symm
  · intro nothing before key after split
    exact ⟨none, rfl, (nothing before key after split).symm⟩

end SqlWorkflowStore

def savedParams : UpsertNodeSessionParams where
  workflowName := "review"
  nodeId := "plan"
  scopeKey := "conversation-1"
  provider := "claude"
  providerSessionId := "session-1"
  lastRunId := some "run-1"

theorem SqlWorkflowStore.isMap_fails :
    ¬ IsMap SqlWorkflowStore.perform (⟨()⟩ : SqlWorkflowStore Unit)
      [.upsert savedParams, .get savedParams.key] := by
  intro isMap
  rcases isMap [.upsert savedParams] savedParams.key [] rfl with ⟨session, answer, same⟩
  cases answer
  cases same

end NodeSessions

end HarnessAgent
