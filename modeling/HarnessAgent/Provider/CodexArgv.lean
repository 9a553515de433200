import HarnessAgent.Foundation.JsonText
import HarnessAgent.Foundation.JsonTree

/-! # Arguments of the Codex CLI

The CLI gets its options as arguments, and settings that have no option of their own as
overrides `path=value` of its configuration, which is TOML. The servers of an MCP config
are such settings.
-/

namespace HarnessAgent

namespace Codex

/-! ## Values in TOML -/

/-- What the libraries know: the letters and digits of Unicode, and the texts of numbers. -/
structure Rendering where
  isAlphanumeric : Char → Bool
  formatNumber : Number → List Char

variable (rendering : Rendering)

def isBareCharacter (character : Char) : Bool :=
  rendering.isAlphanumeric character || character == '_' || character == '-'

def quotedCharacter (character : Char) : List Char :=
  if character = '\\' then ['\\', '\\']
  else if character = '"' then ['\\', '"']
  else [character]

def formatTomlKey (key : String) : List Char :=
  if key.toList.all (isBareCharacter rendering) then key.toList
  else '"' :: key.toList.flatMap quotedCharacter ++ ['"']

def joined (parts : List (List Char)) : List Char :=
  List.intercalate [',', ' '] parts

mutual
def toTomlValue (path : String) : Value → Except String (List Char)
  | .string text => .ok (JsonText.quoted text)
  | .number number =>
      if number.asF64.isFinite then .ok (rendering.formatNumber number)
      else .error ("Codex config override at " ++ path ++ " must be a finite number")
  | .bool value => .ok (if value then ['t', 'r', 'u', 'e'] else ['f', 'a', 'l', 's', 'e'])
  | .array items => do
      let parts ← toTomlItems path 0 items
      return '[' :: joined parts ++ [']']
  | .object members => do
      let parts ← toTomlMembers path members
      return '\x7b' :: joined parts ++ ['\x7d']
  | .null => .error ("Codex config override at " ++ path ++ " cannot be null")

def toTomlItems (path : String) (index : Nat) : List Value → Except String (List (List Char))
  | [] => .ok []
  | item :: rest => do
      let part ← toTomlValue (path ++ "[" ++ toString index ++ "]") item
      let parts ← toTomlItems path (index + 1) rest
      return part :: parts

def toTomlMembers (path : String) : List (String × Value) → Except String (List (List Char))
  | [] => .ok []
  | (key, child) :: rest => do
      let part ← toTomlValue (path ++ "." ++ key) child
      let parts ← toTomlMembers path rest
      return (formatTomlKey rendering key ++ [' ', '=', ' '] ++ part) :: parts
end

/-! ## Overrides -/

def childPath (parent key : String) : String :=
  if parent = "" then key else parent ++ "." ++ key

mutual
/-- The overrides of an object, each a text `path=value`. Members without a key are
skipped, and so are nulls and values that TOML does not have. -/
def flattenConfigOverrides (parent : String) : List (String × Value) → List (List Char)
  | [] => []
  | (key, child) :: rest =>
      (if key = "" then [] else flattenChild (childPath parent key) child) ++
        flattenConfigOverrides parent rest

def flattenChild (path : String) : Value → List (List Char)
  | .object nested =>
      if nested.isEmpty then [path.toList ++ ['=', '\x7b', '\x7d']]
      else flattenConfigOverrides path nested
  | .null => []
  | child =>
      match toTomlValue rendering path child with
      | .ok value => [path.toList ++ '=' :: value]
      | .error _ => []
end

/-! ## Servers -/

mutual
def toCodexConfigValue : Value → Option Value
  | .array items => some (.array (toCodexConfigItems items))
  | .object members => some (.object (toCodexConfigMembers members))
  | .null => none
  | value => some value

def toCodexConfigItems : List Value → List Value
  | [] => []
  | item :: rest => (toCodexConfigValue item).toList ++ toCodexConfigItems rest

/-- The keys of an object are distinct, so that each member is inserted at the end. -/
def toCodexConfigMembers : List (String × Value) → List (String × Value)
  | [] => []
  | (key, value) :: rest =>
      ((toCodexConfigValue value).map fun converted => (key, converted)).toList ++
        toCodexConfigMembers rest
end

def codexMcpPassthroughKeys : List String :=
  ["command", "args", "env", "url", "enabled", "required", "startup_timeout_sec",
    "startup_timeout_ms", "tool_timeout_sec", "enabled_tools", "disabled_tools",
    "supports_parallel_tool_calls", "cwd", "env_vars", "experimental_environment",
    "http_headers", "env_http_headers", "oauth_resource", "scopes", "bearer_token_env_var",
    "default_tools_approval_mode", "tools"]

def convertedMember (serverConfig : Members) (source target : String) : Members :=
  (((serverConfig.get source).bind toCodexConfigValue).map fun value => (target, value)).toList

def convertMcpServerConfigForCodex (serverConfig : Members) : Members :=
  let passed := codexMcpPassthroughKeys.flatMap fun key => convertedMember serverConfig key key
  if (Members.get passed "http_headers").isNone then
    passed ++ convertedMember serverConfig "headers" "http_headers"
  else passed

def convertMcpServers : Members → Members
  | [] => []
  | (serverName, .object serverConfig) :: rest =>
      let converted := convertMcpServerConfigForCodex serverConfig
      if converted.isEmpty then convertMcpServers rest
      else (serverName, .object converted) :: convertMcpServers rest
  | _ :: rest => convertMcpServers rest

def buildCodexMcpConfigOverrides (servers : Members) : Option Value :=
  let mcpServers := convertMcpServers servers
  if mcpServers.isEmpty then none
  else some (.object [("mcp_servers", .object mcpServers)])

/-! ## Arguments -/

inductive ModelReasoningEffort
  | minimal
  | low
  | medium
  | high
  | xhigh
  deriving DecidableEq, Repr

def ModelReasoningEffort.asStr : ModelReasoningEffort → String
  | .minimal => "minimal"
  | .low => "low"
  | .medium => "medium"
  | .high => "high"
  | .xhigh => "xhigh"

inductive WebSearchMode
  | disabled
  | cached
  | live
  deriving DecidableEq, Repr

def WebSearchMode.asStr : WebSearchMode → String
  | .disabled => "disabled"
  | .cached => "cached"
  | .live => "live"

structure CodexProviderDefaults where
  model : Option String := none
  modelReasoningEffort : Option ModelReasoningEffort := none
  webSearchMode : Option WebSearchMode := none
  additionalDirectories : Option (List String) := none

def flag (name value : String) : List String :=
  [name, value]

def overrideFlags : Option Value → List String
  | some (.object overrides) =>
      (flattenConfigOverrides rendering "" overrides).flatMap fun text =>
        flag "--config" (String.ofList text)
  | _ => []

def buildCodexArgv (model : Option String) (defaults : CodexProviderDefaults)
    (resumeSessionId outputSchemaPath : Option String) (cwd : String)
    (configOverrides : Option Value) : List String :=
  ["exec", "--experimental-json"] ++ overrideFlags rendering configOverrides ++
    (model.or defaults.model).toList.flatMap (flag "--model") ++
    flag "--sandbox" "danger-full-access" ++ flag "--cd" cwd ++
    (defaults.additionalDirectories.getD []).flatMap (flag "--add-dir") ++
    ["--skip-git-repo-check"] ++ outputSchemaPath.toList.flatMap (flag "--output-schema") ++
    (defaults.modelReasoningEffort.toList.flatMap fun effort =>
      flag "--config" ("model_reasoning_effort=\"" ++ effort.asStr ++ "\"")) ++
    flag "--config" "sandbox_workspace_write.network_access=true" ++
    (defaults.webSearchMode.toList.flatMap fun mode =>
      flag "--config" ("web_search=\"" ++ mode.asStr ++ "\"")) ++
    flag "--config" "approval_policy=\"never\"" ++ resumeSessionId.toList.flatMap (flag "resume")

end Codex

end HarnessAgent
