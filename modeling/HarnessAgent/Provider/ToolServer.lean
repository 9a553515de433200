import HarnessAgent.Provider.ToolArguments

/-! # The server of native tools

The client is told of the tools with their schemas and calls them by name.
-/

namespace HarnessAgent

open Results ToolArguments

namespace ToolServer

inductive HandlerEnd
  | returned (text : String)
  | panicked (payload : Option String)
  | cancelled

structure NativeTool where
  name : String
  description : String
  inputSchema : Members
  formed : (Value.object inputSchema).Formed
  handler : Option (Members → HandlerEnd)

structure SdkToolDef where
  name : String
  description : String
  fields : List ToolField

def buildArchonMcpServer : List NativeTool → Except String (List SdkToolDef)
  | [] => .ok []
  | tool :: rest => do
      let fields ← validateAndConvertSchema tool.inputSchema
      let toolDefs ← buildArchonMcpServer rest
      return ⟨tool.name, tool.description, fields⟩ :: toolDefs

structure McpSidecar where
  tools : List NativeTool
  descriptor : List SdkToolDef
  built : buildArchonMcpServer tools = .ok descriptor

/-- A schema that cannot be converted keeps the server from starting. -/
def McpSidecar.new (tools : List NativeTool) : Except String McpSidecar :=
  match built : buildArchonMcpServer tools with
  | .ok descriptor => .ok ⟨tools, descriptor, built⟩
  | .error error => .error error

structure JsonRpcRequest where
  id : Option Value
  method : String
  params : Option Value

structure JsonRpcError where
  code : Int
  message : String

structure JsonRpcResponse where
  id : Value
  outcome : Except JsonRpcError Value

def wireToolListItem (tool : SdkToolDef) : Value :=
  .object [("name", .string tool.name), ("description", .string tool.description),
    ("inputSchema", wireInputSchema tool.fields),
    ("execution", .object [("taskSupport", .string "forbidden")]),
    ("_meta", .object [("anthropic/alwaysLoad", .bool true)])]

def textContent (text : String) : String × Value :=
  ("content", .array [.object [("type", .string "text"), ("text", .string text)]])

def toolsCallErrorResult (message : String) : Value :=
  .object [textContent message, ("isError", .bool true)]

def HandlerEnd.result : HandlerEnd → Value
  | .returned text => .object [textContent text]
  | .panicked payload => toolsCallErrorResult (payload.getD "handler panicked")
  | .cancelled => toolsCallErrorResult "handler task cancelled"

namespace McpSidecar

variable (toStringPretty : List Value → String) (server : McpSidecar)

def handleInitialize (params : Option Value) : Value :=
  .object [
    ("protocolVersion",
      .string ((params.bind (Value.getStr · "protocolVersion")).getD "2024-11-05")),
    ("capabilities", .object [("tools", .object [("listChanged", .bool true)])]),
    ("serverInfo", .object [("name", .string "archon"), ("version", .string "1.0.0")])]

def handleToolsList : Value :=
  .object [("tools", .array (server.descriptor.map wireToolListItem))]

def toolName (params : Option Value) : String :=
  (params.bind (Value.getStr · "name")).getD ""

def argsMap (params : Option Value) : Option Members :=
  match (params.bind (Value.get · "arguments")).getD (.object []) with
  | .object members => some members
  | .null => some []
  | _ => none

def handleToolsCall (params : Option Value) : Value × Option (NativeTool × Members) :=
  let name := toolName params
  let failed message := (toolsCallErrorResult ("MCP error -32602: " ++ message), none)
  match server.descriptor.find? (·.name = name), server.tools.find? (·.name = name) with
  | some toolDef, some native =>
      match argsMap params with
      | none => failed "Input validation error: arguments must be an object"
      | some args =>
          match validateToolArgs toStringPretty toolDef.fields args name with
          | .error message => (toolsCallErrorResult message, none)
          | .ok () =>
              match native.handler with
              | none => failed ("Tool " ++ name ++ " has no handler")
              | some handler => ((handler args).result, some (native, args))
  | _, _ => failed ("Tool " ++ name ++ " not found")

def handleMcpRequest (request : JsonRpcRequest) :
    Option (JsonRpcResponse × Option (NativeTool × Members)) :=
  if request.method = "notifications/initialized" then none
  else
    request.id.map fun id =>
      if request.method = "initialize" then (⟨id, .ok (handleInitialize request.params)⟩, none)
      else if request.method = "tools/list" then (⟨id, .ok server.handleToolsList⟩, none)
      else if request.method = "tools/call" then
        let call := server.handleToolsCall toStringPretty request.params
        (⟨id, .ok call.1⟩, call.2)
      else if request.method = "ping" then (⟨id, .ok (.object [])⟩, none)
      else (⟨id, .error ⟨-32601, "Method not found: " ++ request.method⟩⟩, none)

def advertisedSchema (name : String) : Option Value :=
  ((server.handleToolsList.getArray "tools").bind
    (List.find? fun item => item.getStr "name" = some name)).bind (Value.get · "inputSchema")

theorem find_descriptor {tools : List NativeTool} {descriptor : List SdkToolDef}
    (built : buildArchonMcpServer tools = .ok descriptor) {name : String} :
    match tools.find? (·.name = name) with
    | none => descriptor.find? (·.name = name) = none
    | some tool => ∃ toolDef, descriptor.find? (·.name = name) = some toolDef ∧
        validateAndConvertSchema tool.inputSchema = .ok toolDef.fields := by
  induction tools generalizing descriptor with
  | nil =>
      cases built
      rfl
  | cons tool rest induction =>
      rcases bind_eq_ok.mp built with ⟨fields, converted, more⟩
      rcases bind_eq_ok.mp more with ⟨toolDefs, builtRest, last⟩
      cases last
      rw [List.find?_cons, List.find?_cons]
      dsimp only
      cases decide (tool.name = name) with
      | true => exact ⟨_, rfl, converted⟩
      | false => exact induction builtRest

theorem advertisedSchema_eq (name : String) : server.advertisedSchema name =
    (server.descriptor.find? (·.name = name)).map fun toolDef => wireInputSchema toolDef.fields := by
  change ((server.descriptor.map wireToolListItem).find? _).bind _ = _
  rw [List.find?_map]
  have named : ((fun item => decide (item.getStr "name" = some name)) ∘ wireToolListItem) =
      fun toolDef => decide (toolDef.name = name) := by
    funext toolDef
    exact decide_eq_decide.mpr Option.some_inj
  rw [named]
  cases server.descriptor.find? (·.name = name) <;> rfl

theorem validateToolArgs_eq_ok_iff {fields : List ToolField} {args : Members} {name : String} :
    validateToolArgs toStringPretty fields args name = .ok () ↔
      ∀ field ∈ fields, FieldHolds args field := by
  simp [validateToolArgs, List.filterMap_eq_nil_iff, fieldIssue_eq_none_iff]

/-- A call that has a handler run: it names the first tool of its name, and gives arguments that
the schema advertised under this name accepts. -/
def Serves (params : Option Value) (tool : NativeTool) (args : Members) : Prop :=
  server.tools.find? (·.name = toolName params) = some tool ∧ tool.handler.isSome ∧
    argsMap params = some args ∧
    ∃ schema, server.advertisedSchema (toolName params) = some schema ∧
      JsonSchema.Accepts schema (.object args)

theorem handleToolsCall_run_iff (params : Option Value) (tool : NativeTool) (args : Members) :
    (server.handleToolsCall toStringPretty params).2 = some (tool, args) ↔
      server.Serves params tool args := by
  have named := @find_descriptor _ _ server.built (toolName params)
  rw [Serves, advertisedSchema_eq, handleToolsCall]
  dsimp only
  cases found : server.tools.find? (·.name = toolName params) with
  | none =>
      rw [found] at named
      rw [named]
      simp
  | some native =>
      rw [found] at named
      rcases named with ⟨toolDef, defined, converted⟩
      rw [defined]
      dsimp only
      cases argsMap params with
      | none => simp
      | some given =>
          have accepted := @accepts_wireInputSchema_iff given toolDef.fields
            (nodup_of_validateAndConvertSchema native.formed converted)
          have checked := @validateToolArgs_eq_ok_iff toStringPretty toolDef.fields given (toolName params)
          rw [← accepted] at checked
          dsimp only
          cases passed : validateToolArgs toStringPretty toolDef.fields given (toolName params) with
          | error message =>
              refine iff_of_false nofun ?_
              rintro ⟨-, -, same, schema, advertised, accepts⟩
              cases same
              cases advertised
              cases passed.symm.trans (checked.mpr accepts)
          | ok =>
              cases handled : native.handler with
              | none =>
                  refine iff_of_false nofun ?_
                  rintro ⟨same, handles, -⟩
                  cases same
                  rw [handled] at handles
                  cases handles
              | some handler =>
                  constructor
                  · intro run
                    cases run
                    exact ⟨rfl, by rw [handled]; rfl, rfl, _, rfl, checked.mp passed⟩
                  · rintro ⟨same, -, sameArgs, -⟩
                    cases same
                    cases sameArgs
                    rfl

/-- A handler is run exactly for a call that asks for an answer and can be served with the schemas
that the client was given, and with the arguments of the call. -/
theorem handler_run_iff (request : JsonRpcRequest) (tool : NativeTool) (args : Members) :
    (server.handleMcpRequest toStringPretty request).bind Prod.snd = some (tool, args) ↔
      request.method = "tools/call" ∧ request.id.isSome ∧
        server.Serves request.params tool args := by
  rw [← handleToolsCall_run_iff toStringPretty, handleMcpRequest]
  cases request.id with
  | none => split_ifs <;> simp
  | some id =>
      rw [Option.map_some]
      by_cases called : request.method = "tools/call"
      · rw [called, if_neg (by decide), if_neg (by decide), if_neg (by decide), if_pos rfl]
        simp
      · refine iff_of_false ?_ fun holds => called holds.1
        split_ifs <;> exact nofun

def manageRunTool : NativeTool where
  name := "manage_run"
  description := "Inspect and operate this project's workflow runs."
  inputSchema := manageRun
  formed := by
    have string (text : String) : (Value.string text).Formed := Value.formed_of_isPlain rfl
    simp [manageRun, Value.formed_object_iff, Value.formed_array_iff, Members.keys, string]
  handler := some fun _ => .returned "ok"

def listRuns : JsonRpcRequest where
  id := some (.number (.posInt 1))
  method := "tools/call"
  params := some (.object [("name", .string "manage_run"),
    ("arguments", .object [("action", .string "list")])])

theorem handler_run_listRuns :
    ∃ server, McpSidecar.new [manageRunTool] = .ok server ∧
      (server.handleMcpRequest (fun _ => "") listRuns).bind Prod.snd =
        some (manageRunTool, [("action", .string "list")]) := by
  refine ⟨⟨[manageRunTool], _, rfl⟩, rfl, ?_⟩
  rw [handler_run_iff]
  refine ⟨rfl, rfl, rfl, rfl, rfl, _, rfl, ?_⟩
  exact (accepts_wireInputSchema_iff (by decide)).mpr (by decide)

end McpSidecar

end ToolServer

end HarnessAgent
