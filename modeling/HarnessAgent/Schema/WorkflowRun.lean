import HarnessAgent.Foundation.Json

/-! # Workflow runs

The state of a run as it is stored, the captured outputs of its nodes, and the
approval context a paused run carries in its metadata.
-/

namespace HarnessAgent

inductive WorkflowRunStatus
  | pending
  | running
  | completed
  | failed
  | cancelled
  | paused
  deriving DecidableEq, Repr

def statusToStr : WorkflowRunStatus → String
  | .pending => "pending"
  | .running => "running"
  | .completed => "completed"
  | .failed => "failed"
  | .cancelled => "cancelled"
  | .paused => "paused"

inductive NodeOutput
  | completed (output : String) (sessionId : Option String)
      (structuredOutput : Option Value) (declaredFields : Option (List String))
  | running (output : String) (sessionId : Option String)
      (structuredOutput : Option Value) (declaredFields : Option (List String))
  | failed (output : String) (sessionId : Option String) (error : String)
      (structuredOutput : Option Value) (declaredFields : Option (List String))
  | pending (output : String)
  | skipped (output : String)
  deriving DecidableEq, Repr

inductive NodeState
  | pending
  | running
  | completed
  | failed
  | skipped
  deriving DecidableEq, Repr

namespace NodeOutput

def state : NodeOutput → NodeState
  | .completed .. => .completed
  | .running .. => .running
  | .failed .. => .failed
  | .pending _ => .pending
  | .skipped _ => .skipped

def output : NodeOutput → String
  | .completed output .. => output
  | .running output .. => output
  | .failed output .. => output
  | .pending output => output
  | .skipped output => output

def structuredOutput : NodeOutput → Option Value
  | .completed _ _ structured _ => structured
  | .running _ _ structured _ => structured
  | .failed _ _ _ structured _ => structured
  | .pending _ => none
  | .skipped _ => none

def declaredFields : NodeOutput → Option (List String)
  | .completed _ _ _ fields => fields
  | .running _ _ _ fields => fields
  | .failed _ _ _ _ fields => fields
  | .pending _ => none
  | .skipped _ => none

end NodeOutput

abbrev Instant := Int

structure WorkflowRun where
  id : String
  workflowName : String
  conversationId : String
  parentConversationId : Option String := none
  codebaseId : Option String := none
  status : WorkflowRunStatus
  userMessage : String
  metadata : Members
  startedAt : Instant
  completedAt : Option Instant := none
  lastActivityAt : Option Instant := none
  workingPath : Option String := none
  userId : Option String := none
  deriving DecidableEq, Repr

inductive ApprovalContextType
  | approval
  | interactiveLoop
  deriving DecidableEq, Repr

structure ApprovalContext where
  nodeId : String
  message : String
  approvalType : Option ApprovalContextType := none
  iteration : Option F64 := none
  sessionId : Option String := none
  captureResponse : Option Bool := none
  onRejectPrompt : Option String := none
  onRejectMaxAttempts : Option F64 := none
  deriving DecidableEq, Repr

def Value.ofF64 (value : F64) : Value :=
  if value.isFinite then .number (.float value) else .null

namespace ApprovalContextType

def toValue : ApprovalContextType → Value
  | .approval => .string "approval"
  | .interactiveLoop => .string "interactive_loop"

/-- Decoding accepts the name, or the name as the only key of an object. -/
def ofValue : Value → Option ApprovalContextType
  | .string "approval" => some .approval
  | .string "interactive_loop" => some .interactiveLoop
  | .object [("approval", .null)] => some .approval
  | .object [("interactive_loop", .null)] => some .interactiveLoop
  | _ => none

end ApprovalContextType

namespace ApprovalContext

def optionalMember {α : Type} (key : String) (encode : α → Value) (value : Option α) :
    Members :=
  value.toList.map fun present => (key, encode present)

def toMembers (context : ApprovalContext) : Members :=
  [("nodeId", .string context.nodeId), ("message", .string context.message)] ++
    optionalMember "type" ApprovalContextType.toValue context.approvalType ++
    optionalMember "iteration" Value.ofF64 context.iteration ++
    optionalMember "sessionId" Value.string context.sessionId ++
    optionalMember "captureResponse" Value.bool context.captureResponse ++
    optionalMember "onRejectPrompt" Value.string context.onRejectPrompt ++
    optionalMember "onRejectMaxAttempts" Value.ofF64 context.onRejectMaxAttempts

def toValue (context : ApprovalContext) : Value :=
  .object context.toMembers

/-- An optional field is absent, null, or decodes; anything else is an error. -/
def optionalField {α : Type} (decode : Value → Option α) :
    Option Value → Option (Option α)
  | none => some none
  | some .null => some none
  | some value => (decode value).map some

/-- Decoding; unknown members are ignored and a malformed member is an error. -/
def ofMembers (members : Members) : Option ApprovalContext := do
  let nodeId ← (members.get "nodeId").bind Value.asStr
  let message ← (members.get "message").bind Value.asStr
  let approvalType ← optionalField ApprovalContextType.ofValue (members.get "type")
  let iteration ← optionalField Value.asF64 (members.get "iteration")
  let sessionId ← optionalField Value.asStr (members.get "sessionId")
  let captureResponse ← optionalField Value.asBool (members.get "captureResponse")
  let onRejectPrompt ← optionalField Value.asStr (members.get "onRejectPrompt")
  let onRejectMaxAttempts ← optionalField Value.asF64 (members.get "onRejectMaxAttempts")
  return { nodeId, message, approvalType, iteration, sessionId, captureResponse,
           onRejectPrompt, onRejectMaxAttempts }

def ofValue (value : Value) : Option ApprovalContext :=
  value.asObject.bind ofMembers

end ApprovalContext

end HarnessAgent
