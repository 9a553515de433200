import HarnessAgent.Provider.McpConfig

/-! # The servers of the Claude CLI

With native tools the CLI gets one config file, into which the servers of the node are
merged. They are read from the node's file once more, this time from the directory of the
process.
-/

namespace HarnessAgent

open McpConfig Results

/-- The entry of the server that offers the native tools. -/
def archonMembers (port : Nat) : Members :=
  [("type", .string "http"),
    ("url", .string ("http://127.0.0.1:" ++ toString port ++ "/mcp"))]

def existingDocument (files : McpFiles) (path : String) : Except String Members :=
  match files.read path with
  | .error error =>
      .error ("failed to read existing MCP config '" ++ path ++ "': " ++ error.detail)
  | .ok raw =>
      match files.fromStr raw with
      | .ok (.object members) => .ok members
      | .ok _ => .error ("existing MCP config '" ++ path ++ "' must be a JSON object")
      | .error error =>
          .error ("existing MCP config '" ++ path ++ "' is not valid JSON: " ++ error)

def documentServers (path : String) (members : Members) : Except String Members :=
  match members.get "mcpServers" with
  | none => .ok members
  | some (.object servers) => .ok servers
  | some _ => .error ("existing MCP config '" ++ path ++ "': 'mcpServers' must be a JSON object")

def existingServers (files : McpFiles) : Option String → Except String Members
  | none => .ok []
  | some path => do
      let members ← existingDocument files path
      documentServers path members

def writeMcpConfigMerged (files : McpFiles) (temporary : Except String Unit) (port : Nat)
    (existingMcpConfigPath : Option String) : Except String Members := do
  let servers ← existingServers files existingMcpConfigPath
  temporary
  return servers.insert "archon" (.object (archonMembers port))

inductive McpConfigArgument
  | merged (servers : Members)
  | node (path : String)
  deriving DecidableEq, Repr

/-- The config files in the arguments of the CLI, whose native tools are served at the port.
Without a merged file the tools are not available. -/
def mcpConfigArguments (files : McpFiles) (temporary : Except String Unit) (port : Nat)
    (nodeMcpPath : Option String) : List McpConfigArgument :=
  match writeMcpConfigMerged files temporary port nodeMcpPath with
  | .ok servers => [.merged servers]
  | .error _ => (nodeMcpPath.map McpConfigArgument.node).toList

/-- The CLI is given the servers that are loaded, and the native tools. Variables in the
merged file are expanded by the CLI. -/
def GivesServers (envSource : String → Option String) (port : Nat) (loaded : LoadedMcpConfig)
    (arguments : List McpConfigArgument) : Prop :=
  ∃ given expanded, arguments = [.merged given] ∧
    expandEnvVars envSource given = .ok expanded ∧
    ∀ name definition, expanded.1.get name = some definition ↔
      loaded.servers.get name = some definition ∨
        (name = "archon" ∧ definition = .object (archonMembers port))

def ServersAt (files : McpFiles) (path : String) (servers : Members) : Prop :=
  ∃ members, ReadsObject files path members ∧
    ((members.get "mcpServers" = none ∧ servers = members) ∨
      members.get "mcpServers" = some (.object servers))

namespace ServersAt

variable {files : McpFiles} {path : String} {servers : Members}

theorem unique (located : ServersAt files path servers) (atOther : ServersAt files path other) :
    servers = other := by
  rcases located with ⟨members, reads, found⟩
  rcases atOther with ⟨again, readsAgain, foundOther⟩
  cases reads.unique readsAgain
  rcases found with ⟨bare, rfl⟩ | wrapped
  · rcases foundOther with ⟨-, rfl⟩ | wrapped
    · rfl
    · rw [bare] at wrapped
      cases wrapped
  · rcases foundOther with ⟨bare, -⟩ | wrappedOther
    · rw [bare] at wrapped
      cases wrapped
    · rw [wrapped] at wrappedOther
      cases wrappedOther
      rfl

theorem nodup (located : ServersAt files path servers) : servers.keys.Nodup := by
  rcases located with ⟨members, ⟨text, -, parsed⟩, found⟩
  have distinct := files.distinct text _ parsed
  rw [Value.Distinct] at distinct
  rcases found with ⟨-, rfl⟩ | wrapped
  · exact distinct.1
  · have inner := Members.Distinct.of_get distinct.2 wrapped
    rw [Value.Distinct] at inner
    exact inner.1

theorem existingDocument_ok_iff {members : Members} :
    existingDocument files path = .ok members ↔ ReadsObject files path members := by
  rw [existingDocument, ReadsObject]
  cases found : files.read path with
  | error error =>
      refine iff_of_false error_ne_ok ?_
      intro reads
      rcases reads with ⟨text, read, -⟩
      cases read
  | ok raw =>
      dsimp only
      constructor
      · intro read
        split at read
        next other parsed =>
          cases read
          exact ⟨raw, rfl, parsed⟩
        next => cases read
        next => cases read
      · intro reads
        rcases reads with ⟨text, same, parsed⟩
        cases same
        rw [parsed]

theorem documentServers_ok_iff {members : Members} :
    documentServers path members = .ok servers ↔
      (members.get "mcpServers" = none ∧ servers = members) ∨
        members.get "mcpServers" = some (.object servers) := by
  rw [documentServers]
  split
  next bare =>
    rw [bare]
    simp [eq_comm]
  next inner wrapped =>
    rw [wrapped]
    simp
  next value other wrapped =>
    rw [wrapped]
    refine iff_of_false error_ne_ok ?_
    intro either
    rcases either with ⟨impossible, -⟩ | isObject
    · cases impossible
    · cases isObject
      exact other servers rfl

theorem existingServers_ok_iff :
    existingServers files (some path) = .ok servers ↔ ServersAt files path servers := by
  rw [existingServers, bind_eq_ok, ServersAt]
  simp only [existingDocument_ok_iff, documentServers_ok_iff]

theorem of_loadMcpConfig (accepted : loadMcpConfig files mcpPath cwd envSource = .ok loaded) :
    ∃ servers, ServersAt files (mcpFullPath mcpPath cwd) servers ∧
      expandEnvVars envSource servers = .ok (loaded.servers, loaded.missingVars) := by
  rcases loadMcpConfig_ok_iff.mp accepted with ⟨members, servers, reads, normalized, done, -⟩
  refine ⟨servers, ⟨members, reads, ?_⟩, done⟩
  rw [normalizeMcpConfig] at normalized
  split at normalized
  next bare =>
    cases normalized
    exact .inl ⟨Option.isNone_iff_eq_none.mp bare, rfl⟩
  next =>
    split at normalized
    next => cases normalized
    next =>
      split at normalized
      next inner wrapped =>
        cases normalized
        exact .inr wrapped
      next => cases normalized

end ServersAt

/-- The map at one path has the servers of the map at another one, after the expansion,
but for the name of the native tools, under which the other one has no server of its own. -/
structure SameServers (envSource : String → Option String) (port : Nat)
    (merged loaded : Members) : Prop where
  same : ∀ name, name ≠ "archon" →
    serverExpansion envSource merged name = serverExpansion envSource loaded name
  archon : ∀ server, serverExpansion envSource loaded "archon" = some server →
    server = .ok (archonMembers port)

def Merges (files : McpFiles) (temporary : Except String Unit) (envSource : String → Option String)
    (port : Nat) (mcpPath cwd : String) : Prop :=
  temporary = .ok () ∧
    ∃ merged loaded, ServersAt files mcpPath merged ∧
      ServersAt files (mcpFullPath mcpPath cwd) loaded ∧
      SameServers envSource port merged loaded

theorem expandServer_archonMembers (envSource : String → Option String) (port : Nat) :
    expandServer envSource "archon" (.object (archonMembers port)) =
      .ok (archonMembers port, []) := by
  rfl

theorem mcpConfigArguments_merged_iff {files : McpFiles} {temporary : Except String Unit}
    {port : Nat} {mcpPath : String} {given : Members} :
    mcpConfigArguments files temporary port (some mcpPath) = [.merged given] ↔
      temporary = .ok () ∧ ∃ servers, ServersAt files mcpPath servers ∧
        given = servers.insert "archon" (.object (archonMembers port)) := by
  have written : writeMcpConfigMerged files temporary port (some mcpPath) = .ok given ↔
      temporary = .ok () ∧ ∃ servers, ServersAt files mcpPath servers ∧
        given = servers.insert "archon" (.object (archonMembers port)) := by
    rw [writeMcpConfigMerged, bind_eq_ok]
    simp only [ServersAt.existingServers_ok_iff, bind_eq_ok]
    constructor
    · intro done
      rcases done with ⟨servers, located, _, ready, last⟩
      cases last
      exact ⟨ready, servers, located, rfl⟩
    · intro done
      rcases done with ⟨ready, servers, located, rfl⟩
      exact ⟨servers, located, (), ready, rfl⟩
  rw [← written, mcpConfigArguments]
  cases writeMcpConfigMerged files temporary port (some mcpPath) with
  | ok servers => simp
  | error error => simp

variable {envSource : String → Option String}

/-- The merged map, but for the native tools, is expanded as the one it is made from. -/
theorem serverExpansion_insert (servers : Members) (entry : Value) (other : name ≠ "archon") :
    serverExpansion envSource (servers.insert "archon" entry) name =
      serverExpansion envSource servers name := by
  rw [serverExpansion, serverExpansion, Members.get_insert_other _ _ other]

theorem serverExpansion_archon (servers : Members) (port : Nat) :
    serverExpansion envSource (servers.insert "archon" (.object (archonMembers port))) "archon" =
      some (.ok (archonMembers port)) := by
  rw [serverExpansion, Members.get_insert_same, Option.map_some, expandServer_archonMembers]
  rfl

theorem SameServers.expands (same : SameServers envSource port merged loaded)
    (nodup : merged.keys.Nodup) (done : expandEnvVars envSource loaded = .ok expanded) :
    ∃ expanded, expandEnvVars envSource
      (merged.insert "archon" (.object (archonMembers port))) = .ok expanded := by
  rw [exists_expandEnvVars_iff]
  intro entry member
  rcases (Members.mem_insert nodup).mp member with rfl | ⟨inside, other⟩
  · exact ⟨_, expandServer_archonMembers envSource port⟩
  · have here : serverExpansion envSource merged entry.1 =
        some ((expandServer envSource entry.1 entry.2).map Prod.fst) := by
      rw [serverExpansion, Members.get_of_mem nodup inside]
      rfl
    have there := same.same entry.1 other
    rw [here, serverExpansion_of_expandEnvVars done] at there
    rcases Option.bind_eq_some_iff.mp there.symm with ⟨value, -, isObject⟩
    rcases Option.map_eq_some_iff.mp isObject with ⟨server, -, read⟩
    cases result : expandServer envSource entry.1 entry.2 with
    | ok server => exact ⟨server, rfl⟩
    | error error =>
        rw [result] at read
        cases read

/-- The CLI is given the servers of an accepted file and the native tools exactly if the
merged file can be written, the path names the same servers for the process as for the
query, and none of them has the name of the native tools. -/
theorem mcpConfigArguments_givesServers_iff (files : McpFiles) (temporary : Except String Unit)
    (port : Nat) (mcpPath cwd : String) (envSource : String → Option String)
    (loaded : LoadedMcpConfig)
    (accepted : loadMcpConfig files mcpPath cwd envSource = .ok loaded) :
    GivesServers envSource port loaded
        (mcpConfigArguments files temporary port (some mcpPath)) ↔
      Merges files temporary envSource port mcpPath cwd := by
  rcases ServersAt.of_loadMcpConfig accepted with ⟨original, located, done⟩
  constructor
  · intro gives
    rcases gives with ⟨given, expanded, argument, expands, agree⟩
    rcases mcpConfigArguments_merged_iff.mp argument with ⟨ready, merged, atMerged, rfl⟩
    refine ⟨ready, merged, original, atMerged, located, ?_, ?_⟩
    · intro name other
      rw [← serverExpansion_insert merged (.object (archonMembers port)) other,
        serverExpansion_of_expandEnvVars expands, serverExpansion_of_expandEnvVars done]
      have same : expanded.1.get name = loaded.servers.get name := by
        apply Option.ext
        intro definition
        rw [agree name definition]
        simp [other]
      rw [same]
    · intro server found
      rw [serverExpansion_of_expandEnvVars done] at found
      rcases Option.bind_eq_some_iff.mp found with ⟨definition, inside, isObject⟩
      have given := (agree "archon" definition).mpr (.inl inside)
      rcases (get_expandEnvVars_iff expands).mp given with ⟨members, rfl, expansion⟩
      rw [serverExpansion_archon] at expansion
      cases expansion
      cases isObject
      rfl
  · intro merges
    rcases merges with ⟨ready, merged, other, atMerged, atOther, same⟩
    cases located.unique atOther
    rcases same.expands atMerged.nodup done with ⟨expanded, expands⟩
    refine ⟨_, expanded, mcpConfigArguments_merged_iff.mpr ⟨ready, merged, atMerged, rfl⟩,
      expands, ?_⟩
    intro name definition
    rw [get_expandEnvVars_iff expands, @get_expandEnvVars_iff envSource original _ done]
    by_cases isArchon : name = "archon"
    · rw [isArchon, serverExpansion_archon]
      constructor
      · intro found
        rcases found with ⟨server, rfl, here⟩
        cases here
        exact .inr ⟨rfl, rfl⟩
      · intro either
        rcases either with ⟨server, rfl, there⟩ | ⟨-, rfl⟩
        · cases same.archon _ there
          exact ⟨_, rfl, rfl⟩
        · exact ⟨_, rfl, rfl⟩
    · rw [serverExpansion_insert _ _ isArchon, same.same name isArchon]
      simp [isArchon]

theorem merges_of_absolute {port : Nat} {cwd : String}
    (absolute : LexicalPath.isAbsolute mcpPath.toList = true)
    (located : ServersAt files mcpPath servers) (free : servers.get "archon" = none) :
    Merges files (.ok ()) envSource port mcpPath cwd := by
  have path : mcpFullPath mcpPath cwd = mcpPath := by
    rw [mcpFullPath, if_pos absolute]
  refine ⟨rfl, servers, servers, located, ?_, fun _ _ => rfl, ?_⟩
  · rw [path]
    exact located
  · intro server found
    rw [serverExpansion, free] at found
    cases found

theorem mcpConfigArguments_absolute :
    GivesServers (fun _ => none) 4000 githubLoaded
      (mcpConfigArguments (githubFiles true) (.ok ()) 4000 (some "/repo/mcp.json")) := by
  have accepted : loadMcpConfig (githubFiles true) "/repo/mcp.json" "/repo" (fun _ => none) =
      .ok githubLoaded := by
    decide +kernel
  apply (mcpConfigArguments_givesServers_iff _ _ _ _ _ _ _ accepted).mpr
  have located : ServersAt (githubFiles true) "/repo/mcp.json" [("github", githubServer)] :=
    ⟨_, ⟨"document", by decide +kernel, rfl⟩, .inr rfl⟩
  exact merges_of_absolute (by decide) located rfl

/-- A relative path that is loaded from the directory of the query is not found from that of
the process, and the CLI gets no native tools. -/
theorem mcpConfigArguments_relative :
    loadMcpConfig (githubFiles false) "mcp.json" "/repo" (fun _ => none) = .ok githubLoaded ∧
      mcpConfigArguments (githubFiles false) (.ok ()) 4000 (some "mcp.json") =
        [.node "mcp.json"] ∧
      ¬GivesServers (fun _ => none) 4000 githubLoaded
        (mcpConfigArguments (githubFiles false) (.ok ()) 4000 (some "mcp.json")) := by
  have arguments : mcpConfigArguments (githubFiles false) (.ok ()) 4000 (some "mcp.json") =
      [.node "mcp.json"] := by
    decide +kernel
  refine ⟨by decide +kernel, arguments, ?_⟩
  intro gives
  rcases gives with ⟨given, expanded, same, -⟩
  rw [arguments] at same
  cases same

end HarnessAgent
