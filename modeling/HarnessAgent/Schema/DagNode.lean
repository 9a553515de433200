import HarnessAgent.Foundation.Json

/-! # Nodes of a workflow graph

The seven kinds of nodes and the fields they share. Settings that are only
handed through to a provider are not part of the model.
-/

namespace HarnessAgent

inductive TriggerRule
  | allSuccess
  | oneSuccess
  | noneFailedMinOneSuccess
  | allDone
  deriving DecidableEq, Repr

inductive ContextMode
  | fresh
  | shared
  deriving DecidableEq, Repr

inductive OnError
  | transient
  | all
  deriving DecidableEq, Repr

structure StepRetryConfig where
  maxAttempts : Nat
  delayMs : Option F64 := none
  onError : Option OnError := none
  deriving DecidableEq, Repr

structure DagNodeBase where
  id : String
  dependsOn : List String := []
  when : Option String := none
  triggerRule : Option TriggerRule := none
  model : Option String := none
  provider : Option String := none
  context : Option ContextMode := none
  outputFormat : Option Members := none
  retry : Option StepRetryConfig := none
  alwaysRun : Option Bool := none
  persistSession : Option Bool := none
  outputType : Option String := none
  deriving DecidableEq, Repr

structure CommandNode where
  base : DagNodeBase
  command : String
  deriving DecidableEq, Repr

structure PromptNode where
  base : DagNodeBase
  prompt : String
  deriving DecidableEq, Repr

structure BashNode where
  base : DagNodeBase
  bash : String
  timeout : Option F64 := none
  deriving DecidableEq, Repr

inductive ScriptRuntime
  | bun
  | uv
  deriving DecidableEq, Repr

structure ScriptNode where
  base : DagNodeBase
  script : String
  runtime : ScriptRuntime
  deps : Option (List String) := none
  timeout : Option F64 := none
  deriving DecidableEq, Repr

structure LoopNodeConfig where
  prompt : String
  untilSignal : String
  maxIterations : Nat
  freshContext : Bool := false
  untilBash : Option String := none
  interactive : Option Bool := none
  gateMessage : Option String := none
  deriving DecidableEq, Repr

structure LoopNode where
  base : DagNodeBase
  loopConfig : LoopNodeConfig
  deriving DecidableEq, Repr

structure ApprovalOnReject where
  prompt : String
  maxAttempts : Option Nat := none
  deriving DecidableEq, Repr

structure ApprovalConfig where
  message : String
  captureResponse : Option Bool := none
  onReject : Option ApprovalOnReject := none
  deriving DecidableEq, Repr

structure ApprovalNode where
  base : DagNodeBase
  approval : ApprovalConfig
  deriving DecidableEq, Repr

structure CancelNode where
  base : DagNodeBase
  cancel : String
  deriving DecidableEq, Repr

inductive DagNode
  | command (node : CommandNode)
  | prompt (node : PromptNode)
  | bash (node : BashNode)
  | script (node : ScriptNode)
  | loop (node : LoopNode)
  | approval (node : ApprovalNode)
  | cancel (node : CancelNode)
  deriving DecidableEq, Repr

namespace DagNode

def base : DagNode → DagNodeBase
  | .command node => node.base
  | .prompt node => node.base
  | .bash node => node.base
  | .script node => node.base
  | .loop node => node.base
  | .approval node => node.base
  | .cancel node => node.base

def id (node : DagNode) : String := node.base.id

def dependsOn (node : DagNode) : List String := node.base.dependsOn

end DagNode

end HarnessAgent
