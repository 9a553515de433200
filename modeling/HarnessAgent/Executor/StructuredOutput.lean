import HarnessAgent.Executor.AiNode

/-! # The structured output of an AI node

A node with a declared structure is queried until its output has that structure, a
bounded number of times. A completed node then has an output from which every declared
field can be read.
-/

namespace HarnessAgent

/-! ## The validation -/

structure SchemaError where
  instancePath : String
  message : String
  deriving DecidableEq, Repr

structure SchemaLibrary where
  compile : Value → Except String (Value → List SchemaError)

def formatSchemaErrors (errors : List SchemaError) : List String :=
  if errors.isEmpty then ["value does not match the declared schema"]
  else
    errors.map fun error =>
      (if error.instancePath = "" then "(root)" else error.instancePath) ++ ": " ++ error.message

def validateStructuredOutput (library : SchemaLibrary) (value schema : Value) :
    StructuredValidationResult :=
  match library.compile schema with
  | .error _ => .valid
  | .ok iterErrors =>
      if (iterErrors value).isEmpty then .valid
      else .invalid (formatSchemaErrors (iterErrors value))

def AiSettings.validatedBy (settings : AiSettings) (library : SchemaLibrary) : AiSettings :=
  { settings with validateStructuredOutput := HarnessAgent.validateStructuredOutput library }

theorem validateStructuredOutput_valid {schema : Value}
    (compiles : library.compile schema = .ok iterErrors) (value : Value) :
    validateStructuredOutput library value schema = .valid ↔ iterErrors value = [] := by
  rw [validateStructuredOutput, compiles]
  dsimp only
  by_cases clean : (iterErrors value).isEmpty = true
  · rw [if_pos clean]
    exact iff_of_true rfl (List.isEmpty_iff.mp clean)
  · rw [if_neg clean]
    refine iff_of_false ?_ fun empty => clean (List.isEmpty_iff.mpr empty)
    intro valid
    cases valid

namespace AiNode

/-! ## The queries -/

section Queries

variable {settings : AiSettings} {nodeId : String} {resumeSession : Option String}

theorem resumeSession_reaskLoop_later (remaining attempt : Nat) (again : attempt ≠ 0)
    (prompt : String) (before : StreamPass) :
    ∀ made ∈ (reaskLoop settings nodeId resumeSession remaining attempt prompt before).exchanges,
      made.query.resumeSession = none := by
  induction remaining generalizing attempt prompt before with
  | zero =>
      rw [reaskLoop, AiExecution.exchanges_after, exchanges_finishPass]
      intro made member
      rcases List.mem_singleton.mp member with rfl
      exact if_neg again
  | succ remaining induction =>
      rw [reaskLoop]
      split
      · intro made member
        rcases List.mem_cons.mp member with rfl | later
        · exact if_neg again
        · exact induction _ (Nat.succ_ne_zero attempt) _ _ made later
      · rw [AiExecution.exchanges_after, exchanges_finishPass]
        intro made member
        rcases List.mem_singleton.mp member with rfl
        exact if_neg again

theorem resumeSession_reaskLoop (remaining : Nat) (prompt : String) (before : StreamPass) :
    ∃ first later,
      (reaskLoop settings nodeId resumeSession remaining 0 prompt before).exchanges =
        first :: later ∧
      first.query.resumeSession = resumeSession ∧
      ∀ made ∈ later, made.query.resumeSession = none := by
  cases remaining with
  | zero =>
      rw [reaskLoop, AiExecution.exchanges_after, exchanges_finishPass]
      exact ⟨_, [], rfl, rfl, List.forall_mem_nil _⟩
  | succ remaining =>
      rw [reaskLoop]
      split
      · exact ⟨_, _, rfl, rfl, resumeSession_reaskLoop_later _ _ Nat.one_ne_zero _ _⟩
      · rw [AiExecution.exchanges_after, exchanges_finishPass]
        exact ⟨_, [], rfl, rfl, List.forall_mem_nil _⟩

end Queries

/-! ## A completed node -/

section Completed

variable {settings : AiSettings} {nodeId : String} {pass : StreamPass} {schema : Members}

theorem completed_completeNode
    (returned : (completeNode settings nodeId pass outputText).result = some result)
    (completed : result.output.state = .completed) :
    result.output = .completed outputText pass.sessionId pass.structuredOutput
      (declaredFieldsFromSchema (settings.outputFormat.map Value.object)) := by
  rw [completeNode] at returned
  split at returned
  · cases returned
    cases completed
  · split at returned
    · cases returned
      cases completed
    · split at returned
      · cases returned
        cases completed
      · cases returned
        rfl

theorem completed_finishPass (declared : settings.outputFormat = some schema)
    (returned : (finishPass settings nodeId pass).result = some result)
    (completed : result.output.state = .completed) :
    ∃ output text, settings.validateStructuredOutput output (.object schema) = .valid ∧
      outputTextOf settings output = .ok text ∧
      result.output = .completed text pass.sessionId (some output)
        (declaredFieldsFromSchema (some (.object schema))) := by
  rw [finishPass, declared] at returned
  cases failed : pass.streamError with
  | some error =>
      rw [failed] at returned
      dsimp only at returned
      split at returned
      · cases returned
        cases completed
      · cases returned
        cases completed
  | none =>
      rw [failed] at returned
      cases delivered : pass.structuredOutput with
      | none =>
          rw [delivered] at returned
          dsimp only at returned
          split at returned
          · cases returned
            cases completed
          · cases returned
            cases completed
      | some output =>
          rw [delivered] at returned
          dsimp only at returned
          cases validated : settings.validateStructuredOutput output (.object schema) with
          | invalid errors =>
              rw [validated] at returned
              cases returned
              cases completed
          | valid =>
              rw [validated] at returned
              cases written : outputTextOf settings output with
              | error error =>
                  rw [written] at returned
                  cases returned
                  cases completed
              | ok text =>
                  rw [written] at returned
                  have outcome := completed_completeNode returned completed
                  rw [delivered, declared] at outcome
                  exact ⟨output, text, validated, written, outcome⟩

end Completed

theorem resolveNodeOutputField_declared (serde : SerdeJson) {schema : Members}
    (completed : output.state = .completed)
    (fields : output.declaredFields = declaredFieldsFromSchema (some (.object schema)))
    (declares : schema.getObject "properties" = some properties) (member : field ∈ properties.keys)
    (nodeId : String) :
    ∃ resolution, resolveNodeOutputField serde output nodeId field = .ok resolution := by
  have declared : output.declaredFields = some properties.keys := by
    rw [fields]
    rcases Option.bind_eq_some_iff.mp declares with ⟨value, found, isObject⟩
    have got : (Value.object schema).get "properties" = some value := found
    simp [declaredFieldsFromSchema, got, isObject]
  rw [resolveNodeOutputField, completed]
  dsimp only
  rw [resolveSettledField, declared]
  dsimp only
  rw [if_neg (not_not.mpr member)]
  split
  · exact ⟨_, rfl⟩
  · split
    · exact ⟨_, rfl⟩
    · exact ⟨_, rfl⟩
    · exact ⟨_, rfl⟩

/-! ## The node -/

section Node

variable {environment : NodeEnvironment} {settings : AiSettings} {node : DagNode}
  {provider : String} {nodeOutputs : NodeOutputs} {resumeSession : Option String}

theorem length_executedQueries :
    (executedQueries environment settings node provider nodeOutputs resumeSession).length ≤
      1 + maxReasks settings := by
  rw [executedQueries, List.length_map]
  rcases @executeNodeInternal_cases environment settings node provider nodeOutputs resumeSession
    with ⟨prompt, queried⟩ | ⟨unasked, -⟩
  · rw [queried]
    exact length_exchanges_reaskLoop _ _ _ _
  · rw [unasked]
    exact Nat.zero_le _

theorem resumeSession_executedQueries
    (queries : executedQueries environment settings node provider nodeOutputs resumeSession =
      first :: later) :
    first.resumeSession = resumeSession ∧ ∀ query ∈ later, query.resumeSession = none := by
  rw [executedQueries] at queries
  rcases @executeNodeInternal_cases environment settings node provider nodeOutputs resumeSession
    with ⟨prompt, queried⟩ | ⟨unasked, -⟩
  · rcases @resumeSession_reaskLoop settings node.id resumeSession (maxReasks settings) prompt
      (startedPass (.nodeStarted (nodeCommand node) provider)) with
      ⟨made, others, asked, resumed, started⟩
    rw [queried, asked] at queries
    cases queries
    exact ⟨resumed, List.forall_mem_map.mpr started⟩
  · rw [unasked] at queries
    cases queries

theorem maxReasks_of_outputFormat {schema : Members}
    (declared : settings.outputFormat = some schema) :
    maxReasks settings =
      if settings.structuredOutput = .bestEffort then structuredOutputMaxReasks else 0 := by
  rw [maxReasks, declared]
  simp

theorem completed_executeNodeInternal (declared : settings.outputFormat = some schema)
    (returned : (executeNodeInternal environment settings node provider nodeOutputs
      resumeSession).result = some result) (completed : result.output.state = .completed) :
    ∃ output text session, settings.validateStructuredOutput output (.object schema) = .valid ∧
      outputTextOf settings output = .ok text ∧
      result.output = .completed text session (some output)
        (declaredFieldsFromSchema (some (.object schema))) := by
  rcases @executeNodeInternal_cases environment settings node provider nodeOutputs resumeSession
    with ⟨prompt, queried⟩ | ⟨-, fails⟩
  · rcases @reaskLoop_endsAfter settings node.id resumeSession (maxReasks settings) 0 prompt
      (startedPass (.nodeStarted (nodeCommand node) provider)) [] rfl rfl rfl with
      ⟨earlier, last, ends⟩
    rw [queried, ends.result] at returned
    rcases completed_finishPass declared returned completed with
      ⟨output, text, validated, written, outcome⟩
    exact ⟨output, text, _, validated, written, outcome⟩
  · rw [fails result returned] at completed
    cases completed

end Node

end AiNode

open AiNode

/-- A node with a declared structure asks a best-effort provider four times at most and
any other provider once, resumes a session in the first query only, and is completed
only with a structured output without errors, its text, and its declared fields. -/
theorem executeNodeInternal_structuredOutput (environment : NodeEnvironment)
    (settings : AiSettings) (library : SchemaLibrary) (node : DagNode) (provider : String)
    (nodeOutputs : NodeOutputs) (resumeSession : Option String) (schema : Members)
    (iterErrors : Value → List SchemaError) (declared : settings.outputFormat = some schema)
    (compiles : library.compile (.object schema) = .ok iterErrors) :
    (executedQueries environment (settings.validatedBy library) node provider nodeOutputs
        resumeSession).length ≤ 1 + (if settings.structuredOutput = .bestEffort then 3 else 0) ∧
      (∀ first later, executedQueries environment (settings.validatedBy library) node provider
          nodeOutputs resumeSession = first :: later →
        first.resumeSession = resumeSession ∧ ∀ query ∈ later, query.resumeSession = none) ∧
      ∀ result, (executeNodeInternal environment (settings.validatedBy library) node provider
          nodeOutputs resumeSession).result = some result →
        result.output.state = .completed →
        (∃ output, result.output.structuredOutput = some output ∧ iterErrors output = [] ∧
          outputTextOf settings output = .ok result.output.output) ∧
        ∀ serde properties field, schema.getObject "properties" = some properties →
          field ∈ properties.keys →
          ∃ resolution, resolveNodeOutputField serde result.output node.id field =
            .ok resolution := by
  have format : (settings.validatedBy library).outputFormat = some schema := declared
  refine ⟨?_, fun _ _ => resumeSession_executedQueries, ?_⟩
  · exact length_executedQueries.trans (congrArg (1 + ·) (maxReasks_of_outputFormat format)).le
  · intro result returned completed
    rcases completed_executeNodeInternal format returned completed with
      ⟨output, text, session, validated, written, outcome⟩
    constructor
    · refine ⟨output, ?_, (validateStructuredOutput_valid compiles output).mp validated, ?_⟩
      · rw [outcome]
        rfl
      · rw [outcome]
        cases output with
        | string content => exact written
        | null | bool | number | array | object => exact written
    · intro serde properties field declares member
      apply resolveNodeOutputField_declared serde completed ?_ declares member
      rw [outcome]
      rfl

namespace AiNode

def verdictSchema : Members :=
  [("type", .string "object"),
    ("properties", .object [("verdict", .object [("type", .string "string")])]),
    ("required", .array [.string "verdict"])]

def verdictErrors (value : Value) : List SchemaError :=
  match value.get "verdict" with
  | some (.string _) => []
  | _ => [{ instancePath := "", message := "\"verdict\" is a required property" }]

def verdictLibrary : SchemaLibrary where
  compile _ := .ok verdictErrors

def deliveringStream (output : Value) : ProviderStream where
  arrivals := [{ chunk := .result ({ structuredOutput := some output }) }]

/-- A provider that answers in prose, then without the verdict, and then with it. -/
def verdictSettings : AiSettings :=
  { failingSettings with
    outputFormat := some verdictSchema
    sendQuery := fun attempt _ _ =>
      match attempt with
      | 0 => { arrivals := [{ chunk := .assistant "Looks good." }] }
      | 1 => deliveringStream (.object [])
      | _ => deliveringStream (.object [("verdict", .string "ok")])
    serialize := fun _ => .ok "\x7b\"verdict\":\"ok\"\x7d" }

end AiNode

theorem executeNodeInternal_verdict :
    ((executedQueries queriedEnvironment (verdictSettings.validatedBy verdictLibrary) promptNode
        "pi" ∅ (some "session")).map Query.resumeSession = [some "session", none, none]) ∧
      (executedQueries queriedEnvironment (verdictSettings.validatedBy verdictLibrary) promptNode
        "pi" ∅ (some "session")).length ≤ 4 ∧
      ∃ result, (executeNodeInternal queriedEnvironment
          (verdictSettings.validatedBy verdictLibrary) promptNode "pi" ∅ (some "session")).result =
        some result ∧ ∀ serde, ∃ resolution,
          resolveNodeOutputField serde result.output "p" "verdict" = .ok resolution := by
  have completed : (executeNodeInternal queriedEnvironment
      (verdictSettings.validatedBy verdictLibrary) promptNode "pi" ∅ (some "session")).result.map
        (fun result => result.output.state) = some .completed := by
    decide +kernel
  rcases Option.map_eq_some_iff.mp completed with ⟨result, returned, state⟩
  have kept := executeNodeInternal_structuredOutput queriedEnvironment verdictSettings
    verdictLibrary promptNode "pi" ∅ (some "session") verdictSchema verdictErrors rfl rfl
  refine ⟨by decide +kernel, kept.1, result, returned, ?_⟩
  intro serde
  exact (kept.2.2 result returned state).2 serde
    [("verdict", .object [("type", .string "string")])] "verdict" rfl (by decide)

end HarnessAgent
