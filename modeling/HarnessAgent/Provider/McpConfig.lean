import HarnessAgent.Foundation.JsonMerge
import HarnessAgent.Foundation.LexicalPath
import HarnessAgent.Foundation.Results
import HarnessAgent.Foundation.Text

/-! # MCP config files

A node names the servers it uses in a JSON file, as a map or as a map inside a wrapper.
The providers read that file with the variables of the environment put into the `env`
and `headers` of each server.
-/

namespace HarnessAgent

open Results

inductive ReadError
  | notFound (detail : String)
  | failed (detail : String)
  deriving DecidableEq, Repr

def ReadError.detail : ReadError → String
  | .notFound detail => detail
  | .failed detail => detail

/-- The files of the machine, named by paths from the directory of the process, and the
JSON parser, which keeps one member for each key of an object. -/
structure McpFiles where
  read : String → Except ReadError String
  fromStr : String → Except String Value
  distinct : ∀ text value, fromStr text = .ok value → value.Distinct

def mcpFullPath (path directory : String) : String :=
  if LexicalPath.isAbsolute path.toList then path
  else String.ofList (LexicalPath.join directory.toList path.toList)

structure LoadedMcpConfig where
  servers : Members
  serverNames : List String
  missingVars : List String
  deriving DecidableEq, Repr

namespace McpConfig

def describeJsonType : Value → String
  | .null => "null"
  | .array _ => "array"
  | .object _ => "object"
  | .string _ => "string"
  | .number _ => "number"
  | .bool _ => "boolean"

def isVariableStart (character : Char) : Bool :=
  ('A' ≤ character && character ≤ 'Z') || character == '_'

def isVariablePart (character : Char) : Bool :=
  isVariableStart character || Text.isAsciiDigit character

def variableName (text : List Char) : Option (List Char × List Char) :=
  Text.identifier isVariableStart isVariablePart text

def envVariable (text : List Char) : Option (List Char × List Char) :=
  match text with
  | '$' :: '{' :: rest =>
      match variableName rest with
      | some (name, '}' :: after) => some (name, after)
      | _ => none
  | '$' :: rest => variableName rest
  | _ => none

variable (envSource : String → Option String)

/-- The loop over a text: characters of a variable still to be skipped, and the rest. A
variable without a value is missing, and reads as nothing. -/
def expandLoop : Nat → List Char → List Char × List String
  | _, [] => ([], [])
  | skip + 1, _ :: rest => expandLoop skip rest
  | 0, character :: rest =>
      match envVariable (character :: rest) with
      | some (name, remaining) =>
          let later := expandLoop (rest.length - remaining.length) rest
          match envSource (String.ofList name) with
          | some value => (value.toList ++ later.1, later.2)
          | none => (later.1, String.ofList name :: later.2)
      | none =>
          let later := expandLoop 0 rest
          (character :: later.1, later.2)

def expandEnvVarsInRecord (fieldPath : String) :
    Members → Except String (Members × List String)
  | [] => .ok ([], [])
  | (key, .string text) :: rest => do
      let expanded := expandLoop envSource 0 text.toList
      let later ← expandEnvVarsInRecord fieldPath rest
      return ((key, .string (String.ofList expanded.1)) :: later.1, expanded.2 ++ later.2)
  | (key, other) :: _ =>
      .error ("MCP config " ++ fieldPath ++ "." ++ key ++ " must be a string (got " ++
        describeJsonType other ++ ")")

/-- One of the records of a server, in its place. -/
def expandField (serverName field : String) (server : Members) :
    Except String (Members × List String) :=
  match server.get field with
  | none => .ok (server, [])
  | some (.object record) => do
      let expanded ← expandEnvVarsInRecord envSource (serverName ++ "." ++ field) record
      return (server.insert field (.object expanded.1), expanded.2)
  | some other =>
      .error ("MCP config " ++ serverName ++ "." ++ field ++
        " must be a JSON object of string values (got " ++ describeJsonType other ++ ")")

def expandServer (serverName : String) : Value → Except String (Members × List String)
  | .object server => do
      let env ← expandField envSource serverName "env" server
      let headers ← expandField envSource serverName "headers" env.1
      return (headers.1, env.2 ++ headers.2)
  | other =>
      .error ("MCP server \"" ++ serverName ++ "\" must be a JSON object (got " ++
        describeJsonType other ++ ")")

def expandEnvVars : Members → Except String (Members × List String)
  | [] => .ok ([], [])
  | (serverName, serverConfig) :: rest => do
      let server ← expandServer envSource serverName serverConfig
      let later ← expandEnvVars rest
      return ((serverName, .object server.1) :: later.1, server.2 ++ later.2)

end McpConfig

open McpConfig

def normalizeMcpConfig (parsed : Members) (mcpPath : String) : Except String Members :=
  if (parsed.get "mcpServers").isNone then .ok parsed
  else if 1 < parsed.length then
    .error ("MCP config cannot mix top-level \"mcpServers\" with other keys: " ++ mcpPath ++
      ". Use either a direct server map or \x7b \"mcpServers\": \x7b ... \x7d \x7d.")
  else
    match parsed.get "mcpServers" with
    | some (.object servers) => .ok servers
    | _ => .error ("MCP config field \"mcpServers\" must be a JSON object: " ++ mcpPath)

def readMcpConfig (files : McpFiles) (mcpPath fullPath : String) : Except String String :=
  match files.read fullPath with
  | .ok text => .ok text
  | .error (.notFound _) =>
      .error ("MCP config file not found: " ++ mcpPath ++ " (resolved to " ++ fullPath ++ ")")
  | .error (.failed detail) =>
      .error ("Failed to read MCP config file: " ++ mcpPath ++ " - " ++ detail)

def parseMcpConfig (files : McpFiles) (mcpPath raw : String) : Except String Members :=
  match files.fromStr raw with
  | .ok (.object members) => .ok members
  | .ok _ =>
      .error ("MCP config must be a JSON object (Record<string, ServerConfig>): " ++ mcpPath)
  | .error detail =>
      .error ("MCP config file is not valid JSON: " ++ mcpPath ++ " - " ++ detail)

def loadMcpConfig (files : McpFiles) (mcpPath cwd : String)
    (envSource : String → Option String) : Except String LoadedMcpConfig := do
  let raw ← readMcpConfig files mcpPath (mcpFullPath mcpPath cwd)
  let parsed ← parseMcpConfig files mcpPath raw
  let normalized ← normalizeMcpConfig parsed mcpPath
  let expanded ← expandEnvVars envSource normalized
  return { servers := expanded.1, serverNames := expanded.1.keys, missingVars := expanded.2 }

example :
    (expandLoop (fun name => if name = "TOKEN" then some "secret" else none) 0
      "Bearer $\x7bTOKEN\x7d $token $MISSING_1.".toList) =
      ("Bearer secret $token .".toList, ["MISSING_1"]) := by
  decide +kernel

def serverExpansion (envSource : String → Option String) (servers : Members) (name : String) :
    Option (Except String Members) :=
  (servers.get name).map fun config => (expandServer envSource name config).map Prod.fst

variable {config : Members} {expanded : Members × List String}

variable {envSource : String → Option String}

theorem serverExpansion_of_expandEnvVars
    (done : expandEnvVars envSource config = .ok expanded) (name : String) :
    serverExpansion envSource config name =
      (expanded.1.get name).bind fun server => server.asObject.map .ok := by
  induction config generalizing expanded with
  | nil =>
      cases done
      rfl
  | cons member rest induction =>
      rcases member with ⟨other, server⟩
      rw [expandEnvVars] at done
      rcases bind_eq_ok.mp done with ⟨first, expandedFirst, more⟩
      rcases bind_eq_ok.mp more with ⟨later, expandedRest, last⟩
      cases last
      have inner := induction expandedRest
      rw [serverExpansion] at inner ⊢
      dsimp only
      rw [Members.get_cons, Members.get_cons]
      by_cases same : name = other
      · rw [if_pos same, if_pos same, Option.map_some, same, expandedFirst]
        rfl
      · rw [if_neg same, if_neg same]
        exact inner

theorem isObject_of_expandEnvVars (done : expandEnvVars envSource config = .ok expanded)
    (found : expanded.1.get name = some server) : ∃ members, server = .object members := by
  induction config generalizing expanded with
  | nil =>
      cases done
      cases found
  | cons member rest induction =>
      rcases member with ⟨other, server'⟩
      rw [expandEnvVars] at done
      rcases bind_eq_ok.mp done with ⟨first, expandedFirst, more⟩
      rcases bind_eq_ok.mp more with ⟨later, expandedRest, last⟩
      cases last
      dsimp only at found
      rw [Members.get_cons] at found
      split at found
      · cases found
        exact ⟨first.1, rfl⟩
      · exact induction expandedRest found

theorem get_expandEnvVars_iff {envSource : String → Option String} {config : Members}
    {expanded : Members × List String} (done : expandEnvVars envSource config = .ok expanded)
    {name : String} {definition : Value} :
    expanded.1.get name = some definition ↔
      ∃ server, definition = .object server ∧
        serverExpansion envSource config name = some (.ok server) := by
  rw [serverExpansion_of_expandEnvVars done]
  constructor
  · intro found
    rcases isObject_of_expandEnvVars done found with ⟨server, rfl⟩
    rw [found]
    exact ⟨server, rfl, rfl⟩
  · intro both
    rcases both with ⟨server, rfl, expands⟩
    rcases Option.bind_eq_some_iff.mp expands with ⟨value, found, inner⟩
    rcases isObject_of_expandEnvVars done found with ⟨other, rfl⟩
    cases inner
    exact found

theorem exists_expandEnvVars_iff :
    (∃ expanded, expandEnvVars envSource config = .ok expanded) ↔
      ∀ entry ∈ config, ∃ server, expandServer envSource entry.1 entry.2 = .ok server := by
  induction config with
  | nil => exact iff_of_true ⟨_, rfl⟩ (List.forall_mem_nil _)
  | cons member rest induction =>
      rcases member with ⟨name, server⟩
      rw [List.forall_mem_cons, ← induction]
      constructor
      · intro found
        rcases found with ⟨expanded, done⟩
        rw [expandEnvVars] at done
        rcases bind_eq_ok.mp done with ⟨first, expandedFirst, more⟩
        rcases bind_eq_ok.mp more with ⟨later, expandedRest, -⟩
        exact ⟨⟨first, expandedFirst⟩, later, expandedRest⟩
      · intro both
        rcases both with ⟨⟨first, expandedFirst⟩, later, expandedRest⟩
        refine ⟨((name, .object first.1) :: later.1, first.2 ++ later.2), ?_⟩
        rw [expandEnvVars]
        apply bind_eq_ok.mpr
        refine ⟨first, expandedFirst, ?_⟩
        apply bind_eq_ok.mpr
        exact ⟨later, expandedRest, rfl⟩

theorem keys_expandEnvVars
    (done : expandEnvVars envSource config = .ok expanded) : expanded.1.keys = config.keys := by
  induction config generalizing expanded with
  | nil =>
      cases done
      rfl
  | cons member rest induction =>
      rcases member with ⟨name, server⟩
      rw [expandEnvVars] at done
      rcases bind_eq_ok.mp done with ⟨first, _, more⟩
      rcases bind_eq_ok.mp more with ⟨later, expandedRest, last⟩
      cases last
      have same := induction expandedRest
      rw [Members.keys] at same ⊢
      rw [List.map_cons, same]
      rfl

def ReadsObject (files : McpFiles) (path : String) (members : Members) : Prop :=
  ∃ text, files.read path = .ok text ∧ files.fromStr text = .ok (.object members)

variable {files : McpFiles}

theorem ReadsObject.unique (reads : ReadsObject files path members)
    (readsOther : ReadsObject files path other) : members = other := by
  rcases reads with ⟨text, found, parsed⟩
  rcases readsOther with ⟨otherText, foundOther, parsedOther⟩
  cases found.symm.trans foundOther
  cases parsed.symm.trans parsedOther
  rfl

variable {mcpPath : String}

theorem readMcpConfig_ok_iff {fullPath text : String} :
    readMcpConfig files mcpPath fullPath = .ok text ↔ files.read fullPath = .ok text := by
  rw [readMcpConfig]
  split
  next text found => simp [found]
  next detail missing =>
    rw [missing]
    exact iff_of_false error_ne_ok error_ne_ok
  next detail failed =>
    rw [failed]
    exact iff_of_false error_ne_ok error_ne_ok

theorem parseMcpConfig_ok_iff {raw : String} {members : Members} :
    parseMcpConfig files mcpPath raw = .ok members ↔
      files.fromStr raw = .ok (.object members) := by
  rw [parseMcpConfig]
  split
  next found parsed =>
    rw [parsed]
    simp
  next value other parsed =>
    rw [parsed]
    refine iff_of_false error_ne_ok ?_
    intro isObject
    cases isObject
    exact other members rfl
  next detail failed =>
    rw [failed]
    exact iff_of_false error_ne_ok error_ne_ok

theorem loadMcpConfig_ok_iff {cwd : String} {loaded : LoadedMcpConfig} :
    loadMcpConfig files mcpPath cwd envSource = .ok loaded ↔
      ∃ members servers, ReadsObject files (mcpFullPath mcpPath cwd) members ∧
        normalizeMcpConfig members mcpPath = .ok servers ∧
        expandEnvVars envSource servers = .ok (loaded.servers, loaded.missingVars) ∧
        loaded.serverNames = servers.keys := by
  rw [loadMcpConfig]
  constructor
  · intro accepted
    rcases bind_eq_ok.mp accepted with ⟨text, found, parsing⟩
    rcases bind_eq_ok.mp parsing with ⟨members, parsed, normalizing⟩
    rcases bind_eq_ok.mp normalizing with ⟨servers, normalized, expanding⟩
    rcases bind_eq_ok.mp expanding with ⟨expanded, done, last⟩
    cases last
    exact ⟨members, servers,
      ⟨text, readMcpConfig_ok_iff.mp found, parseMcpConfig_ok_iff.mp parsed⟩, normalized, done,
      keys_expandEnvVars done⟩
  · intro accepted
    rcases accepted with ⟨members, servers, ⟨text, found, parsed⟩, normalized, done, names⟩
    have keys := keys_expandEnvVars done
    rcases loaded with ⟨loadedServers, serverNames, missingVars⟩
    apply bind_eq_ok.mpr
    refine ⟨text, readMcpConfig_ok_iff.mpr found, ?_⟩
    apply bind_eq_ok.mpr
    refine ⟨members, parseMcpConfig_ok_iff.mpr parsed, ?_⟩
    apply bind_eq_ok.mpr
    refine ⟨servers, normalized, ?_⟩
    apply bind_eq_ok.mpr
    refine ⟨_, done, ?_⟩
    dsimp only at names keys
    dsimp only
    rw [names, keys]
    rfl

namespace McpConfig

def githubServer : Value :=
  .object [("command", .string "mcp-github")]

/-- A machine with one config file, whose servers stand in a wrapper or not. -/
def githubFiles (wrapped : Bool) : McpFiles where
  read path := if path = "/repo/mcp.json" then .ok "document" else .error (.notFound "")
  fromStr _ :=
    .ok (.object
      (if wrapped then [("mcpServers", .object [("github", githubServer)])]
      else [("github", githubServer)]))
  distinct text value parsed := by
    cases parsed
    cases wrapped with
    | false => simp [githubServer, Value.Distinct, Members.Distinct, Members.keys]
    | true => simp [githubServer, Value.Distinct, Members.Distinct, Members.keys]

def githubLoaded : LoadedMcpConfig where
  servers := [("github", githubServer)]
  serverNames := ["github"]
  missingVars := []

end McpConfig

end HarnessAgent
