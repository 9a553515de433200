import HarnessAgent.Foundation.JsonTree
import HarnessAgent.Store.ActiveRun
import HarnessAgent.Store.NodeSessions
import HarnessAgent.Store.ParameterBinding
import HarnessAgent.Store.WorkflowEvents

/-! # Types of parameters

Postgres gets each parameter with a type that was guessed from its value, and takes the
statement only if that type fits where the parameter is used, the value is one of the
column, and the text of the statement parses. SQLite runs each of the statements with
every value.
-/

namespace HarnessAgent

namespace Postgres

inductive SqlType
  | uuid
  | text
  | varchar (length : Nat)
  | jsonb
  | integer
  | int8
  | float8
  | bool
  | timestamptz
  | interval
  deriving DecidableEq, Repr

namespace SqlType

def isNumeric : SqlType → Bool
  | .integer | .int8 | .float8 => true
  | _ => false

def isTextual : SqlType → Bool
  | .text | .varchar _ => true
  | _ => false

/-- The casts of an assignment: every type has a text, and numbers fit each other. -/
def assignable (source target : SqlType) : Bool :=
  source == target || target.isTextual || (source.isNumeric && target.isNumeric)

/-- The casts that a statement can ask for: a text can be read as any type. -/
def castable (source target : SqlType) : Bool :=
  assignable source target || source.isTextual

def comparable (left right : SqlType) : Bool :=
  left == right || (left.isTextual && right.isTextual) || (left.isNumeric && right.isNumeric)

end SqlType

variable {uuids : UuidLibrary}

def Argument.type : Argument uuids → SqlType
  | .nullText => .text
  | .bool _ => .bool
  | .int8 _ => .int8
  | .float8 _ => .float8
  | .string (.text _) => .text
  | .string (.uuid _) => .uuid
  | .jsonb _ => .jsonb

/-! ## The columns that are named -/

inductive Table
  | codebases
  | conversations
  | users
  | workflowRuns
  deriving DecidableEq, Repr

structure Column where
  name : String
  type : SqlType
  references : Option Table
  deriving DecidableEq, Repr

namespace WorkflowRunsTable

abbrev id : Column := ⟨"id", .uuid, none⟩
abbrev workflowName : Column := ⟨"workflow_name", .varchar 255, none⟩
abbrev conversationId : Column := ⟨"conversation_id", .uuid, some .conversations⟩
abbrev codebaseId : Column := ⟨"codebase_id", .uuid, some .codebases⟩
abbrev status : Column := ⟨"status", .varchar 20, none⟩
abbrev userMessage : Column := ⟨"user_message", .text, none⟩
abbrev metadata : Column := ⟨"metadata", .jsonb, none⟩
abbrev parentConversationId : Column := ⟨"parent_conversation_id", .uuid, some .conversations⟩
abbrev workingPath : Column := ⟨"working_path", .text, none⟩
abbrev userId : Column := ⟨"user_id", .uuid, some .users⟩

end WorkflowRunsTable

namespace WorkflowEventsTable

abbrev id : Column := ⟨"id", .uuid, none⟩
abbrev workflowRunId : Column := ⟨"workflow_run_id", .uuid, some .workflowRuns⟩
abbrev eventType : Column := ⟨"event_type", .varchar 50, none⟩
abbrev stepIndex : Column := ⟨"step_index", .integer, none⟩
abbrev stepName : Column := ⟨"step_name", .varchar 255, none⟩
abbrev data : Column := ⟨"data", .jsonb, none⟩
abbrev createdAt : Column := ⟨"created_at", .timestamptz, none⟩

end WorkflowEventsTable

namespace NodeSessionsTable

abbrev workflowName : Column := ⟨"workflow_name", .varchar 255, none⟩
abbrev nodeId : Column := ⟨"node_id", .varchar 255, none⟩
abbrev scopeKey : Column := ⟨"scope_key", .text, none⟩
abbrev provider : Column := ⟨"provider", .varchar 50, none⟩
abbrev providerSessionId : Column := ⟨"provider_session_id", .text, none⟩
abbrev lastRunId : Column := ⟨"last_run_id", .uuid, some .workflowRuns⟩
abbrev createdAt : Column := ⟨"created_at", .timestamptz, none⟩
abbrev updatedAt : Column := ⟨"updated_at", .timestamptz, none⟩

end NodeSessionsTable

namespace OtherTables

abbrev codebaseId : Column := ⟨"remote_agent_codebases.id", .uuid, none⟩
abbrev envVarsCodebaseId : Column :=
  ⟨"remote_agent_codebase_env_vars.codebase_id", .uuid, some .codebases⟩
abbrev platformConversationId : Column :=
  ⟨"remote_agent_conversations.platform_conversation_id", .varchar 255, none⟩

end OtherTables

/-! ## Parameters in statements -/

inductive Place
  | assignedTo (column : Column)
  | comparedTo (column : Column)
  | patternOf (column : Column)
  | castTo (type : SqlType)
  | joinedToText
  | limit
  deriving DecidableEq, Repr

def Place.accepts (type : SqlType) : Place → Bool
  | .assignedTo column => SqlType.assignable type column.type
  | .comparedTo column => SqlType.comparable type column.type
  | .patternOf column => type.isTextual && column.type.isTextual
  | .castTo target => SqlType.castable type target
  | .joinedToText => true
  | .limit => type == .integer || type == .int8

structure Bound where
  value : Value
  places : List Place

abbrev Statement := List Bound

def Bound.Fits (uuids : UuidLibrary) (bound : Bound) : Prop :=
  ∀ place ∈ bound.places, place.accepts (buildArg uuids bound.value).type = true

def TypeChecks (uuids : UuidLibrary) (statement : Statement) : Prop :=
  ∀ bound ∈ statement, bound.Fits uuids

/-! ## Values that are refused -/

def NoNull (text : String) : Prop :=
  '\x00' ∉ text.toList

def NoNulls (document : Value) : Prop :=
  ∀ text ∈ document.texts, NoNull text

def Argument.Sends : Argument uuids → Prop
  | .string (.text text) => NoNull text
  | .jsonb document => NoNulls document
  | .nullText | .bool _ | .int8 _ | .float8 _ | .string (.uuid _) => True

/-- A text that is too long is cut if only blanks are lost. -/
def InLength (length : Nat) (text : String) : Prop :=
  ∀ character ∈ text.toList.drop length, character = ' '

instance (text : String) : Decidable (NoNull text) :=
  inferInstanceAs (Decidable (_ ∉ _))

instance (length : Nat) (text : String) : Decidable (InLength length text) :=
  List.decidableBAll _ _

def InInteger (number : Int) : Prop :=
  -2 ^ 31 ≤ number ∧ number < 2 ^ 31

def SqlType.Holds : SqlType → Argument uuids → Prop
  | .varchar length, .string (.text value) => InLength length value
  -- each UUID is written with 36 characters
  | .varchar length, .string (.uuid _) => 36 ≤ length
  | .integer, .int8 value => InInteger value
  | .integer, .float8 value => value.isFinite = true ∧ InInteger (F64.roundHalfEven value.value)
  | _, _ => True

abbrev Rows (uuids : UuidLibrary) := Table → uuids.Uuid → Prop

section

variable (rows : Rows uuids)

def Column.Refers (column : Column) : Argument uuids → Prop
  | .string (.uuid uuid) => ∀ table ∈ column.references, rows table uuid
  | _ => True

def Place.Takes (argument : Argument uuids) : Place → Prop
  | .assignedTo column => column.type.Holds argument ∧ column.Refers rows argument
  | .limit =>
      match argument with
      | .int8 value => 0 ≤ value
      | _ => True
  | .comparedTo _ | .patternOf _ | .castTo _ | .joinedToText => True

structure Bound.Runs (bound : Bound) : Prop where
  fits : bound.Fits uuids
  sends : (buildArg uuids bound.value).Sends
  takes : ∀ place ∈ bound.places, place.Takes rows (buildArg uuids bound.value)

end

structure Interval where
  quantity : Int
  fields : String
  deriving DecidableEq, Repr

/-- The grammar has these fields after an interval, and none in the plural. -/
def Interval.Parses (interval : Interval) : Prop :=
  interval.fields ∈ ["year", "month", "day", "hour", "minute", "second", "year to month",
    "day to hour", "day to minute", "day to second", "hour to minute", "hour to second",
    "minute to second"]

instance (interval : Interval) : Decidable interval.Parses :=
  inferInstanceAs (Decidable (_ ∈ _))

/-! ## The statements of the stores -/

def optionalString : Option String → Value
  | some text => .string text
  | none => .null

def compared (column : Column) (text : String) : Bound :=
  ⟨.string text, [.comparedTo column]⟩

def inserted (column : Column) (value : Value) : Bound :=
  ⟨value, [.assignedTo column]⟩

def mergedMetadata (metadata : Members) : Bound :=
  ⟨.object metadata, [.castTo .jsonb]⟩

def staleDays : Bound :=
  ⟨.number (.posInt SqlWorkflowStore.orphanResumeStaleDays), [.joinedToText]⟩

structure CreateWorkflowRunData where
  workflowName : String
  conversationId : String
  codebaseId : Option String
  userMessage : String
  metadata : Option Members
  workingPath : Option String
  parentConversationId : Option String
  userId : Option String

structure WorkflowRunUpdate where
  status : Option WorkflowRunStatus
  metadata : Option Members

def wrapped (number : Nat) : Value :=
  if number % 2 ^ 64 < 2 ^ 63 then .number (.posInt (number % 2 ^ 64))
  else .number (.negInt (2 ^ 64 - number % 2 ^ 64))

structure MadeTexts (uuids : UuidLibrary) where
  toRfc3339 : Instant → String
  instant : ∀ instant, ¬uuids.IsUuid (toRfc3339 instant)
  status : ∀ status, ¬uuids.IsUuid (statusToStr status)

def GeneratedId (uuids : UuidLibrary) :=
  { text : String // uuids.IsUuid text }

inductive Operation (uuids : UuidLibrary)
  | createWorkflowRun (runId : GeneratedId uuids) (data : CreateWorkflowRunData)
  | getWorkflowRun (id : String)
  | getWorkflowRunStatus (id : String)
  | getActiveWorkflowRunByPath (workingPath : String) (selfRun : Option ActiveRunSelf)
  | findResumableRun (workflowName workingPath : String)
  | failOrphanedRuns
  | resumeWorkflowRun (id : String)
  | updateWorkflowRun (id : String) (updates : WorkflowRunUpdate)
  | updateWorkflowActivity (id : String)
  | completeWorkflowRun (id : String) (metadata : Option Members)
  | failWorkflowRun (id errorMsg : String)
  | pauseWorkflowRun (id : String) (approvalContext : ApprovalContext)
  | cancelWorkflowRun (id : String)
  | createWorkflowEvent (data : CreateWorkflowEventData)
  | getCompletedDagNodeOutputs (workflowRunId : String)
  | getCodebaseEnvVars (codebaseId : String)
  | getCodebase (id : String)
  | findWorkflowRunsByIdPrefix (idPrefix codebaseId : String)
  | findResumableRunByParentConversation (workflowName parentConversationId codebaseId : String)
  | getWorkflowRunByWorkerPlatformId (platformConversationId : String)
  | getActiveWorkflowRun (conversationId : String)
  | getPausedWorkflowRun (conversationId : String)
  | findLatestRunByWorkingPath (workingPath : String)
  | getRunningWorkflows
  | deleteOldWorkflowRuns (olderThanDays : Nat)
  | deleteWorkflowRun (id : String)
  | insertEvent (id : GeneratedId uuids) (workflowRunId eventType : String)
      (stepIndex : Option UInt32) (stepName : Option String) (data : Option Members)
  | listWorkflowEvents (workflowRunId : String)
  | listRecentEvents (workflowRunId : String) (eventTypes : Option (List String)) (limit : Nat)
  | listEventsSince (workflowRunId : String) (since : Instant)
  | completedNodeOutputs (workflowRunId : String)
  | getWorkflowNodeSession (key : NodeSessions.WorkflowNodeSessionKey)
  | upsertWorkflowNodeSession (session : NodeSessions.WorkflowNodeSession)
  | deleteWorkflowNodeSessions (key : NodeSessions.WorkflowNodeSessionKey)

/-- An identifier that starts a search is made of hexadecimal digits and hyphens. -/
def isIdPrefix (idPrefix : String) : Bool :=
  idPrefix != "" && idPrefix.toList.all fun character =>
    (Text.hexDigit character).isSome || character == '-'

namespace Operation

open WorkflowRunsTable in
/-- `INSERT INTO remote_agent_workflow_runs (id, ...) VALUES ($1, ..., $9, NOW())` -/
def insertRun (serde : SerdeJson) (runId : String) (data : CreateWorkflowRunData) : Statement :=
  [inserted id (.string runId), inserted workflowName (.string data.workflowName),
    inserted conversationId (.string data.conversationId),
    inserted codebaseId (optionalString data.codebaseId),
    inserted userMessage (.string data.userMessage),
    inserted metadata (.string
      (match data.metadata with
        | some members => serde.toString (.object members)
        | none => "\x7b\x7d")),
    inserted workingPath (optionalString data.workingPath),
    inserted parentConversationId (optionalString data.parentConversationId),
    inserted userId (optionalString data.userId)]

def byRunId (id : String) : Statement :=
  [compared WorkflowRunsTable.id id]

def byEventRunId (workflowRunId : String) : Statement :=
  [compared WorkflowEventsTable.workflowRunId workflowRunId]

/-- No clause refers to the working path. The other parameters are used in
`id != $2 AND (started_at < $3::timestamptz OR (started_at = $3::timestamptz AND id < $2))`. -/
def activeRunByPath {uuids : UuidLibrary} (texts : MadeTexts uuids) (workingPath : String)
    (selfRun : Option ActiveRunSelf) : Statement :=
  ⟨.string workingPath, []⟩ ::
    match selfRun with
    | none => []
    | some self =>
        [⟨.string self.id, [.comparedTo WorkflowRunsTable.id, .comparedTo WorkflowRunsTable.id]⟩,
          ⟨.string (texts.toRfc3339 self.startedAt),
            [.castTo .timestamptz, .castTo .timestamptz]⟩]

def updateRun (id : String) (updates : WorkflowRunUpdate) : List Statement :=
  let status := updates.status.toList.map fun status =>
    inserted WorkflowRunsTable.status (.string (statusToStr status))
  let metadata := updates.metadata.toList.map mergedMetadata
  if (status ++ metadata).isEmpty then []
  else [status ++ metadata ++ [compared WorkflowRunsTable.id id]]

open WorkflowEventsTable in
def insertEventRow (run event : String) (step : Option UInt32) (name : Option String)
    (document : Value) : Statement :=
  [inserted workflowRunId (.string run), inserted eventType (.string event),
    inserted stepIndex ((step.map fun index => Value.number (.posInt index.toNat)).getD .null),
    inserted stepName (optionalString name), inserted data document]

def byConversation (conversation : String) : Statement :=
  [compared WorkflowRunsTable.conversationId conversation,
    compared WorkflowRunsTable.parentConversationId conversation]

open NodeSessionsTable in
def bySessionKey (key : NodeSessions.WorkflowNodeSessionKey) : Statement :=
  [compared workflowName key.workflowName, compared nodeId key.nodeId,
    compared scopeKey key.scopeKey, compared provider key.provider]

open NodeSessionsTable in
/-- `INSERT INTO remote_agent_workflow_node_sessions (...) VALUES ($1, ..., $8) ON CONFLICT ...` -/
def upsertSession (session : NodeSessions.WorkflowNodeSession) : Statement :=
  [inserted workflowName (.string session.workflowName), inserted nodeId (.string session.nodeId),
    inserted scopeKey (.string session.scopeKey), inserted provider (.string session.provider),
    inserted providerSessionId (.string session.providerSessionId),
    inserted lastRunId (optionalString session.lastRunId),
    inserted createdAt (.string session.createdAt),
    inserted updatedAt (.string session.updatedAt)]

def recentEvents (workflowRunId : String) (eventTypes : Option (List String)) (limit : Nat) :
    Statement :=
  compared WorkflowEventsTable.workflowRunId workflowRunId ::
    (eventTypes.getD []).map (compared WorkflowEventsTable.eventType) ++
    [⟨wrapped limit, [.limit]⟩]

def statements {uuids : UuidLibrary} (serde : SerdeJson) (texts : MadeTexts uuids) :
    Operation uuids → List Statement
  | createWorkflowRun runId data => [insertRun serde runId.val data]
  | getWorkflowRun id => [byRunId id]
  | getWorkflowRunStatus id => [byRunId id]
  | getActiveWorkflowRunByPath workingPath selfRun => [activeRunByPath texts workingPath selfRun]
  | findResumableRun workflowName workingPath =>
      [[compared WorkflowRunsTable.workflowName workflowName,
        compared WorkflowRunsTable.workingPath workingPath, staleDays]]
  | failOrphanedRuns => [[mergedMetadata [("failure_reason", .string "server_restart")]]]
  -- the update, the probe of a run that is not resumable, and the updated row
  | resumeWorkflowRun id =>
      [[compared WorkflowRunsTable.id id, staleDays], byRunId id, byRunId id]
  | updateWorkflowRun id updates => updateRun id updates
  | updateWorkflowActivity id => [byRunId id]
  | completeWorkflowRun id metadata =>
      [compared WorkflowRunsTable.id id :: metadata.toList.map mergedMetadata]
  | failWorkflowRun id errorMsg =>
      [[compared WorkflowRunsTable.id id, mergedMetadata [("error", .string errorMsg)]]]
  | pauseWorkflowRun id approvalContext =>
      [[compared WorkflowRunsTable.id id,
        mergedMetadata [("approval", approvalContext.toValue)]]]
  | cancelWorkflowRun id => [byRunId id]
  | createWorkflowEvent data =>
      [insertEventRow data.workflowRunId data.eventType.asStr data.stepIndex data.stepName
        ((data.data.map Value.object).getD .null)]
  | getCompletedDagNodeOutputs workflowRunId => [byEventRunId workflowRunId]
  | getCodebaseEnvVars codebaseId => [[compared OtherTables.envVarsCodebaseId codebaseId]]
  | getCodebase id => [[compared OtherTables.codebaseId id]]
  | findWorkflowRunsByIdPrefix idPrefix codebaseId =>
      if isIdPrefix idPrefix then
        [[compared WorkflowRunsTable.codebaseId codebaseId,
          ⟨.string (idPrefix ++ "%"), [.patternOf WorkflowRunsTable.id]⟩]]
      else []
  | findResumableRunByParentConversation workflowName parentConversationId codebaseId =>
      [[compared WorkflowRunsTable.workflowName workflowName,
        compared WorkflowRunsTable.parentConversationId parentConversationId,
        compared WorkflowRunsTable.codebaseId codebaseId]]
  | getWorkflowRunByWorkerPlatformId platformConversationId =>
      [[compared OtherTables.platformConversationId platformConversationId]]
  | getActiveWorkflowRun conversationId => [byConversation conversationId]
  | getPausedWorkflowRun conversationId => [byConversation conversationId]
  | findLatestRunByWorkingPath workingPath =>
      [[compared WorkflowRunsTable.workingPath workingPath]]
  | getRunningWorkflows => [[]]
  | deleteOldWorkflowRuns _ => [[], []]
  | deleteWorkflowRun id => [byRunId id, byEventRunId id, byRunId id]
  | insertEvent id workflowRunId eventType stepIndex stepName data =>
      [inserted WorkflowEventsTable.id (.string id.val) ::
        insertEventRow workflowRunId eventType stepIndex stepName (.object (data.getD []))]
  | listWorkflowEvents workflowRunId => [byEventRunId workflowRunId]
  | listRecentEvents workflowRunId eventTypes limit =>
      [recentEvents workflowRunId eventTypes limit]
  | listEventsSince workflowRunId since =>
      [[compared WorkflowEventsTable.workflowRunId workflowRunId,
        compared WorkflowEventsTable.createdAt (texts.toRfc3339 since)]]
  | completedNodeOutputs workflowRunId => [byEventRunId workflowRunId]
  | getWorkflowNodeSession key => [bySessionKey key]
  | upsertWorkflowNodeSession session => [upsertSession session]
  | deleteWorkflowNodeSessions key => [bySessionKey key]

def intervals : Operation uuids → List Interval
  | getActiveWorkflowRunByPath .. => [⟨SqlWorkflowStore.stalePendingAgeMs, "milliseconds"⟩]
  | deleteOldWorkflowRuns olderThanDays => [⟨olderThanDays, "days"⟩]
  | _ => []

structure Runs (rows : Rows uuids) (serde : SerdeJson) (texts : MadeTexts uuids)
    (operation : Operation uuids) : Prop where
  bound : ∀ statement ∈ operation.statements serde texts, ∀ bound ∈ statement, bound.Runs rows
  parsed : ∀ interval ∈ operation.intervals, interval.Parses

end Operation

/-! ## What fits where -/

section Fits

variable {uuids : UuidLibrary}

theorem buildArg_of_parse {text : String} {uuid : uuids.Uuid}
    (parsed : uuids.parse text = some uuid) :
    buildArg uuids (.string text) = .string (.uuid uuid) := by
  rw [buildArg, stringArgument, parsed]

theorem buildArg_of_not_isUuid {text : String} (other : ¬uuids.IsUuid text) :
    buildArg uuids (.string text) = .string (.text text) := by
  rw [buildArg, stringArgument, Option.not_isSome_iff_eq_none.mp other]

@[simp] theorem typeChecks_cons (bound : Bound) (statement : Statement) :
    TypeChecks uuids (bound :: statement) ↔ bound.Fits uuids ∧ TypeChecks uuids statement :=
  List.forall_mem_cons

@[simp] theorem typeChecks_append (front back : Statement) :
    TypeChecks uuids (front ++ back) ↔ TypeChecks uuids front ∧ TypeChecks uuids back :=
  List.forall_mem_append

theorem fits_single (value : Value) (place : Place) :
    Bound.Fits uuids ⟨value, [place]⟩ ↔ place.accepts (buildArg uuids value).type = true :=
  List.forall_mem_singleton

theorem fits_string (text : String) (place : Place) :
    Bound.Fits uuids ⟨.string text, [place]⟩ ↔
      uuids.IsUuid text ∧ place.accepts .uuid = true ∨
        ¬uuids.IsUuid text ∧ place.accepts .text = true := by
  rw [fits_single]
  by_cases isUuid : uuids.IsUuid text
  · rcases Option.isSome_iff_exists.mp isUuid with ⟨uuid, parsed⟩
    rw [buildArg_of_parse parsed]
    simp [isUuid, Argument.type]
  · rw [buildArg_of_not_isUuid isUuid]
    simp [isUuid, Argument.type]

variable {column : Column} (text : String)

theorem fits_compared_uuid (uuid : column.type = .uuid) :
    (compared column text).Fits uuids ↔ uuids.IsUuid text := by
  rw [compared, fits_string]
  simp [Place.accepts, uuid, SqlType.comparable, SqlType.isTextual, SqlType.isNumeric]

theorem fits_compared_textual (textual : column.type.isTextual = true) :
    (compared column text).Fits uuids ↔ ¬uuids.IsUuid text := by
  rw [compared, fits_string]
  cases type : column.type with
  | text | varchar =>
      simp [Place.accepts, type, SqlType.comparable, SqlType.isTextual, SqlType.isNumeric]
  | uuid | jsonb | integer | int8 | float8 | bool | timestamptz | interval =>
      rw [type] at textual
      cases textual

theorem not_fits_compared_timestamptz (timestamp : column.type = .timestamptz) :
    ¬(compared column text).Fits uuids := by
  rw [compared, fits_string]
  simp [Place.accepts, timestamp, SqlType.comparable, SqlType.isTextual, SqlType.isNumeric]

theorem fits_inserted_uuid (uuid : column.type = .uuid) :
    (inserted column (.string text)).Fits uuids ↔ uuids.IsUuid text := by
  rw [inserted, fits_string]
  simp [Place.accepts, uuid, SqlType.assignable, SqlType.isTextual, SqlType.isNumeric]

theorem fits_inserted_textual (textual : column.type.isTextual = true) (value : Value) :
    (inserted column value).Fits uuids := by
  rw [inserted, fits_single, Place.accepts, SqlType.assignable, textual, Bool.or_true,
    Bool.true_or]

/-- A text fits neither into a document nor into a timestamp, whether it is a UUID or not. -/
theorem not_fits_inserted (other : column.type = .jsonb ∨ column.type = .timestamptz) :
    ¬(inserted column (.string text)).Fits uuids := by
  rw [inserted, fits_string]
  rcases other with type | type
  · simp [Place.accepts, type, SqlType.assignable, SqlType.isTextual, SqlType.isNumeric]
  · simp [Place.accepts, type, SqlType.assignable, SqlType.isTextual, SqlType.isNumeric]

theorem buildArg_wrapped (uuids : UuidLibrary) (number : Nat) :
    ∃ value, buildArg uuids (wrapped number) = .int8 value ∧
      (0 ≤ value ↔ number % 2 ^ 64 < 2 ^ 63) := by
  rw [wrapped]
  split
  next small =>
    have fits : (Value.number (.posInt (number % 2 ^ 64))).asI64 =
        some ((number % 2 ^ 64 : Nat) : Int) := if_pos small
    refine ⟨(number % 2 ^ 64 : Nat), ?_, iff_of_true (Int.natCast_nonneg _) small⟩
    simp only [buildArg, fits]
  next large =>
    refine ⟨-((2 ^ 64 - number % 2 ^ 64 : Nat) : Int), rfl, iff_of_false ?_ large⟩
    have below := Nat.mod_lt number (show 2 ^ 64 > 0 by decide)
    omega

theorem fits_limit (number : Nat) : Bound.Fits uuids ⟨wrapped number, [.limit]⟩ := by
  rcases buildArg_wrapped uuids number with ⟨value, built, -⟩
  rw [fits_single, built]
  rfl

end Fits

/-! ## What runs -/

def Plain (uuids : UuidLibrary) (text : String) : Prop :=
  ¬uuids.IsUuid text ∧ NoNull text

def Storable (uuids : UuidLibrary) (length : Nat) (text : String) : Prop :=
  uuids.IsUuid text ∨ NoNull text ∧ InLength length text

def Rows.Has {uuids : UuidLibrary} (rows : Rows uuids) (table : Table) (text : String) : Prop :=
  ∃ uuid, uuids.parse text = some uuid ∧ rows table uuid

theorem Rows.Has.isUuid {uuids : UuidLibrary} {rows : Rows uuids} {text : String}
    (has : rows.Has table text) : uuids.IsUuid text := by
  rcases has with ⟨uuid, parsed, -⟩
  exact Option.isSome_iff_exists.mpr ⟨uuid, parsed⟩

section Runs

variable {uuids : UuidLibrary} {rows : Rows uuids}

theorem runs_single (value : Value) (place : Place) :
    Bound.Runs rows ⟨value, [place]⟩ ↔
      Bound.Fits uuids ⟨value, [place]⟩ ∧ (buildArg uuids value).Sends ∧
        place.Takes rows (buildArg uuids value) := by
  constructor
  · intro runs
    exact ⟨runs.fits, runs.sends, runs.takes _ (List.mem_singleton_self _)⟩
  · intro parts
    exact ⟨parts.1, parts.2.1, List.forall_mem_singleton.mpr parts.2.2⟩

theorem sends_string (text : String) :
    (buildArg uuids (.string text)).Sends ↔ uuids.IsUuid text ∨ NoNull text := by
  by_cases isUuid : uuids.IsUuid text
  · rcases Option.isSome_iff_exists.mp isUuid with ⟨uuid, parsed⟩
    rw [buildArg_of_parse parsed]
    exact iff_of_true trivial (.inl isUuid)
  · rw [buildArg_of_not_isUuid isUuid, or_iff_right isUuid]
    rfl

theorem runs_compared (column : Column) (text : String) :
    (compared column text).Runs rows ↔
      (compared column text).Fits uuids ∧ (uuids.IsUuid text ∨ NoNull text) := by
  rw [← sends_string, compared, runs_single]
  exact and_congr_right fun _ => and_iff_left trivial

variable (name text : String) (references : Option Table)

@[simp] theorem runs_compared_uuid :
    (compared ⟨name, .uuid, references⟩ text).Runs rows ↔ uuids.IsUuid text := by
  rw [runs_compared, fits_compared_uuid text rfl]
  exact and_iff_left_of_imp Or.inl

theorem runs_compared_textual (textual : column.type.isTextual = true) :
    (compared column text).Runs rows ↔ Plain uuids text := by
  rw [runs_compared, fits_compared_textual text textual]
  exact and_congr_right fun other => or_iff_right other

@[simp] theorem runs_compared_text :
    (compared ⟨name, .text, references⟩ text).Runs rows ↔ Plain uuids text :=
  runs_compared_textual text rfl

@[simp] theorem runs_compared_varchar (length : Nat) :
    (compared ⟨name, .varchar length, references⟩ text).Runs rows ↔ Plain uuids text :=
  runs_compared_textual text rfl

@[simp] theorem not_runs_compared_timestamptz :
    ¬(compared ⟨name, .timestamptz, references⟩ text).Runs rows :=
  fun runs => not_fits_compared_timestamptz text rfl runs.fits

theorem runs_inserted (column : Column) (value : Value) :
    (inserted column value).Runs rows ↔
      (inserted column value).Fits uuids ∧ (buildArg uuids value).Sends ∧
        column.type.Holds (buildArg uuids value) ∧ column.Refers rows (buildArg uuids value) :=
  runs_single value (.assignedTo column)

@[simp] theorem runs_inserted_uuid :
    (inserted ⟨name, .uuid, none⟩ (.string text)).Runs rows ↔ uuids.IsUuid text := by
  rw [runs_inserted, fits_inserted_uuid text rfl]
  constructor
  · exact fun parts => parts.1
  · intro isUuid
    rcases Option.isSome_iff_exists.mp isUuid with ⟨uuid, parsed⟩
    rw [buildArg_of_parse parsed]
    exact ⟨isUuid, trivial, trivial, fun table member => nomatch member⟩

@[simp] theorem runs_inserted_reference (table : Table) :
    (inserted ⟨name, .uuid, some table⟩ (.string text)).Runs rows ↔ rows.Has table text := by
  rw [runs_inserted, fits_inserted_uuid text rfl]
  constructor
  · intro parts
    rcases parts with ⟨isUuid, -, -, refers⟩
    rcases Option.isSome_iff_exists.mp isUuid with ⟨uuid, parsed⟩
    rw [buildArg_of_parse parsed] at refers
    exact ⟨uuid, parsed, refers table rfl⟩
  · intro has
    rcases has with ⟨uuid, parsed, there⟩
    rw [buildArg_of_parse parsed]
    refine ⟨Option.isSome_iff_exists.mpr ⟨uuid, parsed⟩, trivial, trivial, ?_⟩
    intro other member
    rw [← Option.some.inj member]
    exact there

theorem runs_inserted_varchar {length : Nat} (long : 36 ≤ length) :
    (inserted ⟨name, .varchar length, none⟩ (.string text)).Runs rows ↔
      Storable uuids length text := by
  rw [runs_inserted, and_iff_right (fits_inserted_textual rfl _), sends_string]
  by_cases isUuid : uuids.IsUuid text
  · rcases Option.isSome_iff_exists.mp isUuid with ⟨uuid, parsed⟩
    rw [buildArg_of_parse parsed]
    exact iff_of_true ⟨.inl isUuid, long, fun table member => nomatch member⟩ (.inl isUuid)
  · rw [buildArg_of_not_isUuid isUuid, Storable, or_iff_right isUuid, or_iff_right isUuid]
    exact and_congr_right fun _ => and_iff_left trivial

@[simp] theorem runs_inserted_optionalString (optional : Option String) :
    (inserted ⟨name, .varchar 255, none⟩ (optionalString optional)).Runs rows ↔
      ∀ text ∈ optional, Storable uuids 255 text := by
  cases optional with
  | none =>
      refine iff_of_true ?_ fun text member => nomatch member
      exact (runs_inserted _ _).mpr ⟨fits_inserted_textual rfl _, trivial, trivial, trivial⟩
  | some text =>
      rw [optionalString, runs_inserted_varchar name text (by decide)]
      simp

@[simp] theorem not_runs_inserted_timestamptz :
    ¬(inserted ⟨name, .timestamptz, references⟩ (.string text)).Runs rows :=
  fun runs => not_fits_inserted text (.inr rfl) runs.fits

@[simp] theorem not_runs_inserted_jsonb :
    ¬(inserted ⟨name, .jsonb, references⟩ (.string text)).Runs rows :=
  fun runs => not_fits_inserted text (.inl rfl) runs.fits

@[simp] theorem runs_inserted_object (members : Members) :
    (inserted ⟨name, .jsonb, none⟩ (.object members)).Runs rows ↔ NoNulls (.object members) := by
  rw [runs_inserted]
  constructor
  · exact fun parts => parts.2.1
  · intro readable
    exact ⟨(fits_single _ _).mpr rfl, readable, trivial, trivial⟩

theorem not_runs_inserted_null (other : column.type = .jsonb ∨ column.type = .integer) :
    ¬(inserted column .null).Runs rows := by
  intro runs
  have fits := (fits_single _ _).mp runs.fits
  rw [Place.accepts] at fits
  rcases other with type | type
  · rw [type] at fits
    cases fits
  · rw [type] at fits
    cases fits

@[simp] theorem runs_inserted_integer (index : UInt32) :
    (inserted ⟨name, .integer, none⟩ (.number (.posInt index.toNat))).Runs rows ↔
      index.toNat < 2 ^ 31 := by
  have small : index.toNat < 2 ^ 63 := lt_trans index.toNat_lt (by decide)
  have built : buildArg uuids (.number (.posInt index.toNat)) = .int8 index.toNat := by
    have fits : (Value.number (.posInt index.toNat)).asI64 = some (index.toNat : Int) :=
      if_pos small
    simp only [buildArg, fits]
  rw [runs_inserted, built]
  constructor
  · intro parts
    exact Int.ofNat_lt.mp parts.2.2.1.2
  · intro below
    refine ⟨?_, trivial, ⟨?_, Int.ofNat_lt.mpr below⟩, trivial⟩
    · rw [inserted, fits_single, built]
      rfl
    · omega

@[simp] theorem runs_mergedMetadata (metadata : Members) :
    (mergedMetadata metadata).Runs rows ↔ NoNulls (.object metadata) := by
  rw [mergedMetadata, runs_single, and_iff_right ((fits_single _ _).mpr rfl)]
  exact and_iff_left trivial

@[simp] theorem runs_staleDays : staleDays.Runs rows :=
  (runs_single _ _).mpr ⟨(fits_single _ _).mpr rfl, trivial, trivial⟩

@[simp] theorem runs_limit (number : Nat) :
    Bound.Runs rows ⟨wrapped number, [.limit]⟩ ↔ number % 2 ^ 64 < 2 ^ 63 := by
  rcases buildArg_wrapped uuids number with ⟨value, built, sign⟩
  rw [← sign, runs_single, and_iff_right (fits_limit number), built]
  exact and_iff_right trivial

@[simp] theorem not_runs_pattern (text : String) :
    ¬Bound.Runs rows ⟨.string text, [.patternOf WorkflowRunsTable.id]⟩ := by
  intro runs
  have fits := runs.fits _ (List.mem_singleton_self _)
  rw [Place.accepts, Bool.and_eq_true] at fits
  exact Bool.false_ne_true fits.2

end Runs

namespace Operation

def Suits {uuids : UuidLibrary} (rows : Rows uuids) : Operation uuids → Prop
  | createWorkflowRun .. => False
  | getWorkflowRun id => uuids.IsUuid id
  | getWorkflowRunStatus id => uuids.IsUuid id
  | getActiveWorkflowRunByPath .. => False
  | findResumableRun workflowName workingPath =>
      Plain uuids workflowName ∧ Plain uuids workingPath
  | failOrphanedRuns => True
  | resumeWorkflowRun id => uuids.IsUuid id
  | updateWorkflowRun id updates =>
      (updates.status = none ∧ updates.metadata = none) ∨
        uuids.IsUuid id ∧ ∀ members ∈ updates.metadata, NoNulls (.object members)
  | updateWorkflowActivity id => uuids.IsUuid id
  | completeWorkflowRun id metadata =>
      uuids.IsUuid id ∧ ∀ members ∈ metadata, NoNulls (.object members)
  | failWorkflowRun id errorMsg => uuids.IsUuid id ∧ NoNull errorMsg
  | pauseWorkflowRun id approvalContext => uuids.IsUuid id ∧ NoNulls approvalContext.toValue
  | cancelWorkflowRun id => uuids.IsUuid id
  | createWorkflowEvent data =>
      rows.Has .workflowRuns data.workflowRunId ∧
        (∃ index ∈ data.stepIndex, index.toNat < 2 ^ 31) ∧
        (∀ name ∈ data.stepName, Storable uuids 255 name) ∧
        ∃ members ∈ data.data, NoNulls (.object members)
  | getCompletedDagNodeOutputs workflowRunId => uuids.IsUuid workflowRunId
  | getCodebaseEnvVars codebaseId => uuids.IsUuid codebaseId
  | getCodebase id => uuids.IsUuid id
  | findWorkflowRunsByIdPrefix idPrefix _ => isIdPrefix idPrefix = false
  | findResumableRunByParentConversation workflowName parentConversationId codebaseId =>
      Plain uuids workflowName ∧ uuids.IsUuid parentConversationId ∧ uuids.IsUuid codebaseId
  | getWorkflowRunByWorkerPlatformId platformConversationId => Plain uuids platformConversationId
  | getActiveWorkflowRun conversationId => uuids.IsUuid conversationId
  | getPausedWorkflowRun conversationId => uuids.IsUuid conversationId
  | findLatestRunByWorkingPath workingPath => Plain uuids workingPath
  | getRunningWorkflows => True
  | deleteOldWorkflowRuns _ => False
  | deleteWorkflowRun id => uuids.IsUuid id
  | insertEvent _ workflowRunId eventType stepIndex stepName data =>
      rows.Has .workflowRuns workflowRunId ∧ Storable uuids 50 eventType ∧
        (∃ index ∈ stepIndex, index.toNat < 2 ^ 31) ∧
        (∀ name ∈ stepName, Storable uuids 255 name) ∧ NoNulls (.object (data.getD []))
  | listWorkflowEvents workflowRunId => uuids.IsUuid workflowRunId
  | listRecentEvents workflowRunId eventTypes limit =>
      uuids.IsUuid workflowRunId ∧ (∀ eventType ∈ eventTypes.getD [], Plain uuids eventType) ∧
        limit % 2 ^ 64 < 2 ^ 63
  | listEventsSince .. => False
  | completedNodeOutputs workflowRunId => uuids.IsUuid workflowRunId
  | getWorkflowNodeSession key | deleteWorkflowNodeSessions key =>
      Plain uuids key.workflowName ∧ Plain uuids key.nodeId ∧ Plain uuids key.scopeKey ∧
        Plain uuids key.provider
  | upsertWorkflowNodeSession _ => False

section Families

variable {uuids : UuidLibrary} {rows : Rows uuids} {serde : SerdeJson} {texts : MadeTexts uuids}

theorem runs_iff_bound {operation : Operation uuids} (plain : operation.intervals = []) :
    operation.Runs rows serde texts ↔
      ∀ statement ∈ operation.statements serde texts, ∀ bound ∈ statement, bound.Runs rows := by
  constructor
  · exact Operation.Runs.bound
  · intro bound
    refine ⟨bound, ?_⟩
    rw [plain]
    exact List.forall_mem_nil _

theorem runs_status (texts : MadeTexts uuids) (status : WorkflowRunStatus) :
    (inserted WorkflowRunsTable.status (.string (statusToStr status))).Runs rows := by
  have short : NoNull (statusToStr status) ∧ InLength 20 (statusToStr status) := by
    cases status with
    | pending | running | completed | failed | cancelled | paused => decide
  rw [runs_inserted, and_iff_right (fits_inserted_textual rfl _),
    buildArg_of_not_isUuid (texts.status status)]
  exact ⟨short.1, short.2, trivial⟩

theorem runs_updateRun (texts : MadeTexts uuids) (id : String) (updates : WorkflowRunUpdate) :
    (∀ statement ∈ updateRun id updates, ∀ bound ∈ statement, bound.Runs rows) ↔
      (updates.status = none ∧ updates.metadata = none) ∨
        uuids.IsUuid id ∧ ∀ members ∈ updates.metadata, NoNulls (.object members) := by
  rcases updates with ⟨status, metadata⟩
  cases status with
  | none =>
      cases metadata with
      | none => simp [updateRun]
      | some members => simp [updateRun, and_comm]
  | some status =>
      have stored := @runs_status uuids rows texts status
      cases metadata with
      | none => simp [updateRun, stored]
      | some members => simp [updateRun, stored, and_comm]

theorem runs_insertEventRow (run event : String) (step : Option UInt32) (name : Option String)
    (document : Value) :
    (∀ bound ∈ insertEventRow run event step name document, bound.Runs rows) ↔
      rows.Has .workflowRuns run ∧ Storable uuids 50 event ∧
        (∃ index ∈ step, index.toNat < 2 ^ 31) ∧ (∀ text ∈ name, Storable uuids 255 text) ∧
        (inserted WorkflowEventsTable.data document).Runs rows := by
  have typed := @runs_inserted_varchar uuids rows "event_type" event 50 (by decide)
  cases step with
  | none =>
      have missing : ¬(inserted WorkflowEventsTable.stepIndex .null).Runs rows :=
        not_runs_inserted_null (.inr rfl)
      simp [insertEventRow, missing]
  | some index => simp [insertEventRow, typed]

theorem storable_asStr (eventType : WorkflowEventType) : Storable uuids 50 eventType.asStr := by
  right
  cases eventType <;> decide

theorem runs_recentEvents (workflowRunId : String) (eventTypes : Option (List String))
    (limit : Nat) :
    (∀ bound ∈ recentEvents workflowRunId eventTypes limit, bound.Runs rows) ↔
      uuids.IsUuid workflowRunId ∧ (∀ eventType ∈ eventTypes.getD [], Plain uuids eventType) ∧
        limit % 2 ^ 64 < 2 ^ 63 := by
  simp [recentEvents, or_imp, forall_and]

theorem runs_bySessionKey (key : NodeSessions.WorkflowNodeSessionKey) :
    (∀ bound ∈ bySessionKey key, bound.Runs rows) ↔
      Plain uuids key.workflowName ∧ Plain uuids key.nodeId ∧ Plain uuids key.scopeKey ∧
        Plain uuids key.provider := by
  simp [bySessionKey]

theorem noNulls_singleton {text : String} (plain : NoNull key) :
    NoNulls (.object [(key, .string text)]) ↔ NoNull text := by
  simp [NoNulls, Value.texts, Value.textsOfMembers, plain]

theorem noNulls_approval (document : Value) :
    NoNulls (.object [("approval", document)]) ↔ NoNulls document := by
  have key : NoNull "approval" := by decide
  simp [NoNulls, Value.texts, Value.textsOfMembers, key]

theorem not_parses_stale : ¬Interval.Parses ⟨SqlWorkflowStore.stalePendingAgeMs, "milliseconds"⟩ := by
  decide

theorem not_parses_days (days : Int) : ¬Interval.Parses ⟨days, "days"⟩ := by
  simp [Interval.Parses]

end Families

end Operation

theorem operation_runs_iff {uuids : UuidLibrary} (rows : Rows uuids) (serde : SerdeJson)
    (texts : MadeTexts uuids) (operation : Operation uuids) :
    operation.Runs rows serde texts ↔ operation.Suits rows := by
  cases operation with
  | getActiveWorkflowRunByPath workingPath selfRun =>
      refine iff_of_false ?_ id
      intro runs
      exact Operation.not_parses_stale (runs.parsed _ (List.mem_singleton_self _))
  | deleteOldWorkflowRuns olderThanDays =>
      refine iff_of_false ?_ id
      intro runs
      exact Operation.not_parses_days _ (runs.parsed _ (List.mem_singleton_self _))
  | createWorkflowRun runId data =>
      rw [Operation.runs_iff_bound rfl]
      simp [Operation.statements, Operation.insertRun, Operation.Suits]
  | upsertWorkflowNodeSession session =>
      rw [Operation.runs_iff_bound rfl]
      simp [Operation.statements, Operation.upsertSession, Operation.Suits]
  | updateWorkflowRun id updates =>
      rw [Operation.runs_iff_bound rfl]
      exact Operation.runs_updateRun texts id updates
  | findWorkflowRunsByIdPrefix idPrefix codebaseId =>
      rw [Operation.runs_iff_bound rfl, Operation.statements, Operation.Suits]
      cases isIdPrefix idPrefix with
      | true => simp
      | false => simp
  | completeWorkflowRun id metadata =>
      rw [Operation.runs_iff_bound rfl]
      cases metadata with
      | none => simp [Operation.statements, Operation.Suits]
      | some members => simp [Operation.statements, Operation.Suits]
  | failOrphanedRuns =>
      rw [Operation.runs_iff_bound rfl]
      have readable : NoNulls (.object [("failure_reason", .string "server_restart")]) :=
        (Operation.noNulls_singleton (by decide)).mpr (by decide)
      simp [Operation.statements, Operation.Suits, readable]
  | failWorkflowRun id errorMsg =>
      rw [Operation.runs_iff_bound rfl]
      have readable : NoNulls (.object [("error", .string errorMsg)]) ↔ NoNull errorMsg :=
        Operation.noNulls_singleton (by decide)
      simp [Operation.statements, Operation.Suits, readable]
  | pauseWorkflowRun id approvalContext =>
      rw [Operation.runs_iff_bound rfl]
      simp [Operation.statements, Operation.Suits, Operation.noNulls_approval]
  | createWorkflowEvent data =>
      rw [Operation.runs_iff_bound rfl, Operation.statements, List.forall_mem_singleton,
        Operation.runs_insertEventRow, and_iff_right (Operation.storable_asStr _)]
      rcases data with ⟨run, event, step, name, document⟩
      cases document with
      | none =>
          have missing : ¬(inserted WorkflowEventsTable.data .null).Runs rows :=
            not_runs_inserted_null (.inl rfl)
          simp [Operation.Suits, missing]
      | some members => simp [Operation.Suits]
  | insertEvent id workflowRunId eventType stepIndex stepName data =>
      rw [Operation.runs_iff_bound rfl, Operation.statements, List.forall_mem_singleton,
        List.forall_mem_cons, Operation.runs_insertEventRow, runs_inserted_uuid,
        and_iff_right id.property, runs_inserted_object]
      rfl
  | listRecentEvents workflowRunId eventTypes limit =>
      rw [Operation.runs_iff_bound rfl, Operation.statements, List.forall_mem_singleton]
      exact Operation.runs_recentEvents workflowRunId eventTypes limit
  | getWorkflowNodeSession key | deleteWorkflowNodeSessions key =>
      rw [Operation.runs_iff_bound rfl, Operation.statements, List.forall_mem_singleton]
      exact Operation.runs_bySessionKey key
  | findResumableRun | findResumableRunByParentConversation | getWorkflowRunByWorkerPlatformId
  | findLatestRunByWorkingPath | getRunningWorkflows | listEventsSince | getWorkflowRun
  | getWorkflowRunStatus | resumeWorkflowRun | updateWorkflowActivity | cancelWorkflowRun
  | getCompletedDagNodeOutputs | getCodebaseEnvVars | getCodebase | getActiveWorkflowRun
  | getPausedWorkflowRun | deleteWorkflowRun | listWorkflowEvents | completedNodeOutputs =>
      rw [Operation.runs_iff_bound rfl]
      simp [Operation.statements, Operation.byRunId, Operation.byEventRunId,
        Operation.byConversation, Operation.Suits]

namespace Operation

def newYear : MadeTexts uuidCrate where
  toRfc3339 _ := "2026-01-01T00:00:00+00:00"
  instant _ := by
    rw [UuidLibrary.IsUuid]
    decide +kernel
  status status := by
    rw [UuidLibrary.IsUuid]
    cases status with
    | pending | running | completed | failed | cancelled | paused => decide +kernel

def conversationKey : NodeSessions.WorkflowNodeSessionKey where
  workflowName := "deploy"
  nodeId := "plan"
  scopeKey := "550e8400-e29b-41d4-a716-446655440000"
  provider := "claude"

end Operation

/-- A scope that is a conversation is bound as a UUID, which cannot be compared to the text
of the column. -/
theorem getWorkflowNodeSession_conversation :
    ¬∃ (rows : Rows uuidCrate) (serde : SerdeJson),
      (Operation.getWorkflowNodeSession Operation.conversationKey).Runs rows serde
        Operation.newYear := by
  intro found
  rcases found with ⟨rows, serde, runs⟩
  rcases (Operation.runs_bySessionKey _).mp (runs.bound _ (List.mem_singleton_self _)) with
    ⟨-, -, scope, -⟩
  apply scope.1
  rw [UuidLibrary.IsUuid]
  decide +kernel

theorem takesEvent_of_runs {database : SqlDatabase} {rows : Rows database.uuids}
    {serde : SerdeJson} {texts : MadeTexts database.uuids} {data : CreateWorkflowEventData}
    (runs : (Operation.createWorkflowEvent data).Runs rows serde texts) :
    database.TakesEvent data := by
  rcases Operation.runs_insertEventRow _ _ _ _ _ |>.mp
    (runs.bound _ (List.mem_singleton_self _)) with ⟨run, -, ⟨index, indexed, -⟩, -, document⟩
  intro _
  refine ⟨run.isUuid, Option.isSome_of_mem indexed, ?_⟩
  cases given : data.data with
  | some members => rfl
  | none =>
      rw [given] at document
      exact absurd document (not_runs_inserted_null (.inl rfl))

end Postgres

end HarnessAgent
