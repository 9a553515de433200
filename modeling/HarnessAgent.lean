import HarnessAgent.Executor.AgentNames
import HarnessAgent.Executor.AiProfile
import HarnessAgent.Executor.Announcement
import HarnessAgent.Executor.BashStructure
import HarnessAgent.Executor.CompletionDetection
import HarnessAgent.Executor.ConditionMeaning
import HarnessAgent.Executor.FencedOutput
import HarnessAgent.Executor.IssueContext
import HarnessAgent.Executor.McpFailureMessages
import HarnessAgent.Executor.NodeArtifacts
import HarnessAgent.Executor.NodeReferences
import HarnessAgent.Executor.Resume
import HarnessAgent.Executor.Schedule
import HarnessAgent.Executor.ScriptDiscovery
import HarnessAgent.Executor.SentPrompts
import HarnessAgent.Executor.StructuredOutput
import HarnessAgent.Executor.SubprocessFailure
import HarnessAgent.Executor.ToolEvents
import HarnessAgent.Executor.Truncations
import HarnessAgent.Executor.WorkflowStart
import HarnessAgent.Isolation.ArgumentIndependence
import HarnessAgent.Isolation.CopyGuard
import HarnessAgent.Isolation.CopyTree
import HarnessAgent.Isolation.HandedOut
import HarnessAgent.Isolation.RemovalVerification
import HarnessAgent.Isolation.RepeatedCreate
import HarnessAgent.Isolation.WorktreeListing
import HarnessAgent.Paths.CwdEnvironment
import HarnessAgent.Provider.CodexOverrides
import HarnessAgent.Provider.CodexSession
import HarnessAgent.Provider.ContentLengthCodec
import HarnessAgent.Provider.CopilotEvents
import HarnessAgent.Provider.EmbeddedRuntime
import HarnessAgent.Provider.EventDelivery
import HarnessAgent.Provider.InFlightRequests
import HarnessAgent.Provider.MalformedLines
import HarnessAgent.Provider.McpExpansion
import HarnessAgent.Provider.McpSidecar
import HarnessAgent.Provider.OpenCodeTexts
import HarnessAgent.Provider.PiFinalMessage
import HarnessAgent.Provider.RetryClassification
import HarnessAgent.Provider.StrictSchema
import HarnessAgent.Provider.StructuredTranscript
import HarnessAgent.Provider.ToolServer
import HarnessAgent.Schema.NodeAcceptance
import HarnessAgent.Store.ConnectionSettings
import HarnessAgent.Store.DialectAgreement
import HarnessAgent.Store.EventCursor
import HarnessAgent.Store.RunLifecycle
import HarnessAgent.Store.SessionStatements
