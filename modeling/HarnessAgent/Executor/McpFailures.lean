import HarnessAgent.Provider.ClaudeProvider
import HarnessAgent.Provider.McpConfig

/-! # Failed MCP servers

The provider says which servers did not connect, and the executor tells the user about
those that the node has configured. It reads their names from the config file itself.
-/

namespace HarnessAgent

open Text McpConfig

def loadConfiguredMcpServerNames (files : McpFiles) (nodeMcpPath : Option String)
    (cwd : String) : List String :=
  match nodeMcpPath with
  | none => []
  | some mcpPath =>
      match files.read (mcpFullPath mcpPath cwd) with
      | .error _ => []
      | .ok raw =>
          match files.fromStr raw with
          | .error _ => []
          | .ok parsed =>
              match parsed.asObject with
              | some members => members.keys
              | none => []

namespace McpFailures

structure McpFailureEntry where
  name : String
  segment : String
  deriving DecidableEq, Repr

def mcpFailurePrefix : String := "MCP server connection failed: "

def segmentName (segment : List Char) : List Char :=
  trim (beforePair ' ' '(' segment)

def failureEntry (raw : List Char) : Option McpFailureEntry :=
  if segmentName (trim raw) = [] then none
  else some {
    name := String.ofList (segmentName (trim raw))
    segment := String.ofList (trim raw) }

def firstEntries : List String → List McpFailureEntry → List McpFailureEntry
  | _, [] => []
  | seen, entry :: rest =>
      if entry.name ∈ seen then firstEntries seen rest
      else entry :: firstEntries (entry.name :: seen) rest

def parseMcpFailureServerNames (message : String) : List McpFailureEntry :=
  match afterLiteral mcpFailurePrefix.toList message.toList with
  | none => []
  | some rest => firstEntries [] ((splitPair ',' ' ' rest).filterMap failureEntry)

example :
    (parseMcpFailureServerNames "MCP server connection failed: db (failed), db (timeout),  x"
      ).map McpFailureEntry.segment = ["db (failed)", "x"] := by
  decide +kernel

/-- The failures that are forwarded; all others are taken for those of plugins. -/
def workflowFailures (configured : List String) (content : String) : List McpFailureEntry :=
  (parseMcpFailureServerNames content).filter fun entry => decide (entry.name ∈ configured)

variable {name : String}

theorem mem_names_firstEntries {seen : List String} {entries : List McpFailureEntry} :
    name ∈ (firstEntries seen entries).map McpFailureEntry.name ↔
      name ∈ entries.map McpFailureEntry.name ∧ name ∉ seen := by
  induction entries generalizing seen with
  | nil => simp [firstEntries]
  | cons entry rest induction =>
      rw [firstEntries]
      by_cases known : entry.name ∈ seen
      · rw [if_pos known, induction, List.map_cons, List.mem_cons]
        grind
      · rw [if_neg known, List.map_cons, List.mem_cons, induction, List.map_cons, List.mem_cons,
          List.mem_cons]
        grind

/-- A name that can be read back from a message: no white space around it, and nothing in
it that ends a name or an entry. -/
structure Readable (name : String) : Prop where
  shown : name ≠ ""
  trimmed : trim name.toList = name.toList
  noStatus : ¬[' ', '('] <:+: name.toList
  noComma : ¬[',', ' '] <:+: name.toList
  ends : name.toList.getLast? ≠ some ','

def failureText (name status : String) : String :=
  name ++ " (" ++ status ++ ")"

theorem parse_message (present : texts ≠ []) :
    parseMcpFailureServerNames (mcpFailurePrefix ++ ", ".intercalate texts) =
      firstEntries [] ((texts.flatMap fun text => splitPair ',' ' ' text.toList).filterMap
        failureEntry) := by
  have rest : afterLiteral mcpFailurePrefix.toList
      (mcpFailurePrefix ++ ", ".intercalate texts).toList =
        some (List.intercalate [',', ' '] (texts.map String.toList)) := by
    rw [String.toList_append, String.toList_intercalate]
    exact List.isPrefixOf?_eq_some_iff_append_eq.mpr rfl
  have apart : ',' ≠ ' ' := by decide
  have mapped : texts.map String.toList ≠ [] := fun absent => present (List.map_eq_nil_iff.mp absent)
  rw [parseMcpFailureServerNames, rest]
  dsimp only
  rw [splitPair_intercalate apart mapped, List.flatMap_map]

variable {part : List Char}

theorem failureEntry_eq_some_iff {entry : McpFailureEntry} :
    failureEntry part = some entry ↔
      entry.name ≠ "" ∧ segmentName (trim part) = entry.name.toList ∧
        trim part = entry.segment.toList := by
  rcases entry with ⟨name, segment⟩
  rw [failureEntry]
  split
  next empty =>
    rw [empty]
    refine iff_of_false (by simp) ?_
    intro both
    exact both.1 (String.toList_eq_nil_iff.mp both.2.1.symm)
  next shown =>
    rw [Option.some.injEq, McpFailureEntry.mk.injEq]
    constructor
    · intro both
      rcases both with ⟨rfl, rfl⟩
      refine ⟨?_, String.toList_ofList.symm, String.toList_ofList.symm⟩
      intro empty
      exact shown (String.ofList_eq_empty_iff.mp empty)
    · intro all
      rw [all.2.1, all.2.2, String.ofList_toList, String.ofList_toList]
      exact ⟨rfl, rfl⟩

theorem mem_names_parse (present : texts ≠ []) :
    name ∈ (parseMcpFailureServerNames (mcpFailurePrefix ++ ", ".intercalate texts)).map
        McpFailureEntry.name ↔
      name ≠ "" ∧ ∃ text ∈ texts, ∃ part ∈ splitPair ',' ' ' text.toList,
        segmentName (trim part) = name.toList := by
  rw [parse_message present, mem_names_firstEntries, and_iff_left List.not_mem_nil]
  simp only [List.mem_map, List.mem_filterMap, List.mem_flatMap]
  constructor
  · intro found
    rcases found with ⟨found, ⟨part, ⟨text, member, inside⟩, same⟩, rfl⟩
    rcases failureEntry_eq_some_iff.mp same with ⟨shown, read, -⟩
    exact ⟨shown, text, member, part, inside, read⟩
  · intro found
    rcases found with ⟨shown, text, member, part, inside, read⟩
    refine ⟨⟨name, String.ofList (trim part)⟩, ⟨part, ⟨text, member, inside⟩, ?_⟩, rfl⟩
    exact failureEntry_eq_some_iff.mpr ⟨shown, read, String.toList_ofList.symm⟩

variable {text : List Char}

theorem not_blank_of_trim_eq (shown : text ≠ []) (trimmed : trim text = text) : ¬Blank text := by
  intro blank
  apply shown
  have emptied := @trim_append_of_blank [] _ blank
  rw [List.nil_append, trimmed] at emptied
  exact emptied

theorem trimStart_eq_of_trim_eq (trimmed : trim text = text) : trimStart text = text := by
  have shorter : (trim text).length ≤ (trimStart text).length := by
    rw [trim, trimEnd, List.length_reverse, ← @List.length_reverse _ (trimStart text)]
    exact (List.dropWhile_sublist _).length_le
  rw [trimmed] at shorter
  exact (List.dropWhile_suffix _).eq_of_length_le shorter

/-- A readable name is read back from what is written about its server. -/
theorem Readable.exists_part (readable : Readable name) (status : String) :
    ∃ part ∈ splitPair ',' ' ' (failureText name status).toList,
      segmentName (trim part) = name.toList := by
  have chars : (failureText name status).toList =
      (name.toList ++ [' ', '(']) ++ (status.toList ++ [')']) := by
    simp [failureText]
  have noComma : ¬[',', ' '] <:+: name.toList ++ [' ', '('] := by
    rw [pair_infix_append]
    intro inside
    rcases inside with within | status | ⟨ends, -⟩
    · exact readable.noComma within
    · exact absurd status (by decide)
    · exact readable.ends ends
  have front := @prefix_beforePair ',' ' ' _ noComma (by simp) (status.toList ++ [')'])
  rcases front with ⟨more, whole⟩
  refine ⟨beforePair ',' ' ' (failureText name status).toList, ?_, ?_⟩
  · rw [beforePair]
    cases parts : splitPair ',' ' ' (failureText name status).toList with
    | nil => exact absurd parts (splitPair_ne_nil _)
    | cons head tail => exact List.mem_cons_self
  · rw [chars, ← whole, List.append_assoc]
    have shown : ¬Blank name.toList :=
      not_blank_of_trim_eq (fun empty => readable.shown (String.toList_eq_nil_iff.mp empty))
        readable.trimmed
    have paren : ¬Blank ([' ', '('] ++ more) := by
      intro blank
      exact absurd (blank '(' (by simp)) (by decide)
    have kept : ∃ status, trimEnd ([' ', '('] ++ more) = ' ' :: '(' :: status := by
      by_cases blank : Blank more
      · rw [trimEnd_append_of_blank blank]
        exact ⟨[], rfl⟩
      · rw [trimEnd_append_of_not_blank blank]
        exact ⟨_, rfl⟩
    rcases kept with ⟨status, kept⟩
    rw [trim, trimStart_append_of_not_blank shown, trimStart_eq_of_trim_eq readable.trimmed,
      trimEnd_append_of_not_blank paren, kept, segmentName,
      beforePair_append (by decide) readable.noStatus, readable.trimmed]

theorem trim_isInfix (text : List Char) : trim text <:+: text := by
  rcases exists_trim text with ⟨before, after, -, -, whole⟩
  exact ⟨before, after, whole.symm⟩

theorem readable_of_part (shown : name ≠ "") (member : part ∈ splitPair ',' ' ' text)
    (read : segmentName (trim part) = name.toList) (ends : name.toList.getLast? ≠ some ',') :
    Readable name := by
  have inside : name.toList <:+: beforePair ' ' '(' (trim part) := by
    rw [← read]
    exact trim_isInfix _
  refine ⟨shown, ?_, ?_, ?_, ends⟩
  · rw [← read, segmentName, trim_trim]
  · intro status
    exact not_infix_beforePair _ (status.trans inside)
  · intro comma
    have whole : beforePair ' ' '(' (trim part) <:+: part :=
      (beforePair_isPrefix _).isInfix.trans (trim_isInfix part)
    exact not_infix_of_mem_splitPair member (comma.trans (inside.trans whole))

theorem readable_of_alone (shown : name ≠ "")
    (member : part ∈ splitPair ',' ' ' (failureText name "failed").toList)
    (read : segmentName (trim part) = name.toList) : Readable name := by
  by_cases ends : name.toList.getLast? = some ','
  · rcases List.getLast?_eq_some_iff.mp ends with ⟨front, whole⟩
    have chars : (failureText name "failed").toList = front ++ ',' :: ' ' :: "(failed)".toList := by
      simp [failureText, whole]
    have noComma : ¬[',', ' '] <:+: name.toList := by
      intro comma
      have inside : name.toList <:+: part := by
        rw [← read]
        exact (trim_isInfix _).trans ((beforePair_isPrefix _).isInfix.trans (trim_isInfix part))
      exact not_infix_of_mem_splitPair member (comma.trans inside)
    have frontless : ¬[',', ' '] <:+: front := by
      intro comma
      apply noComma
      rw [whole]
      exact comma.trans (List.prefix_append _ _).isInfix
    rw [chars, splitPair_append (by decide), splitPair_of_not_infix frontless] at member
    rcases List.mem_cons.mp member with rfl | status
    · have shorter : (segmentName (trim part)).length ≤ part.length :=
        ((trim_isInfix _).trans ((beforePair_isPrefix _).isInfix.trans (trim_isInfix _))).length_le
      rw [read, whole, List.length_append] at shorter
      exact absurd shorter (by simp)
    · have alone : part = "(failed)".toList := by
        have absent : splitPair ',' ' ' "(failed)".toList = ["(failed)".toList] := by decide
        rw [absent] at status
        exact List.mem_singleton.mp status
      rw [alone] at read
      have last : (segmentName (trim "(failed)".toList)).getLast? = some ')' := by decide
      rw [read, ends] at last
      exact absurd last (by decide)
  · exact readable_of_part shown member read ends

def ReportsFailure (event : Value) (name : String) : Prop :=
  event.getStr "type" = some "system" ∧ event.getStr "subtype" = some "init" ∧
    ∃ server ∈ (event.getArray "mcp_servers").getD [], ∃ status,
      server.getStr "name" = some name ∧ server.getStr "status" = some status ∧
      status ≠ "connected"

/-- The executor knows the servers that the provider has loaded, and tells the user
whenever one of them fails. -/
structure KnowsServers (files : McpFiles) (mcpPath cwd : String) (loaded : LoadedMcpConfig) :
    Prop where
  names : ∀ name, name ∈ loadConfiguredMcpServerNames files (some mcpPath) cwd ↔
    name ∈ loaded.serverNames
  forwarded : ∀ render event name, ReportsFailure event name → name ∈ loaded.serverNames →
    ∃ content, Claude.parseClaudeStreamJson render event = some [.system content] ∧
      ∃ entry ∈ workflowFailures (loadConfiguredMcpServerNames files (some mcpPath) cwd) content,
        entry.name = name

/-- A file without a wrapper, or whose wrapper holds a server of the same name only, and
names that can be read back. -/
def NamesDirectly (files : McpFiles) (path : String) : Prop :=
  ∃ members, ReadsObject files path members ∧
    (members.get "mcpServers" = none ∨
      ∃ servers, members = [("mcpServers", .object servers)] ∧ servers ≠ [] ∧
        ∀ name ∈ Members.keys servers, name = "mcpServers") ∧
    ∀ name ∈ members.keys, Readable name

theorem loadConfiguredMcpServerNames_of_reads
    (reads : ReadsObject files (mcpFullPath mcpPath cwd) members) :
    loadConfiguredMcpServerNames files (some mcpPath) cwd = members.keys := by
  rcases reads with ⟨text, found, parsed⟩
  rw [loadConfiguredMcpServerNames]
  simp only [found, parsed]
  rfl

theorem names_iff (normalized : normalizeMcpConfig members mcpPath = .ok servers) :
    (∀ name, name ∈ members.keys ↔ name ∈ servers.keys) ↔
      (members.get "mcpServers" = none ∨
        ∃ servers, members = [("mcpServers", .object servers)] ∧ servers ≠ [] ∧
          ∀ name ∈ Members.keys servers, name = "mcpServers") := by
  rw [normalizeMcpConfig] at normalized
  split at normalized
  next bare =>
    cases normalized
    exact iff_of_true (fun _ => Iff.rfl) (.inl (Option.isNone_iff_eq_none.mp bare))
  next wrapped =>
    split at normalized
    next => cases normalized
    next short =>
      split at normalized
      next inner found =>
        cases normalized
        have single : members = [("mcpServers", .object servers)] := by
          cases members with
          | nil => cases found
          | cons member rest =>
              rcases member with ⟨key, value⟩
              have absent : rest = [] := by
                rw [List.length_cons] at short
                exact List.eq_nil_of_length_eq_zero (by omega)
              subst absent
              rw [Members.get_cons] at found
              split at found
              next same =>
                cases found
                rw [same]
              next => cases found
        rw [single]
        constructor
        · intro agree
          refine .inr ⟨servers, rfl, ?_, ?_⟩
          · intro absent
            have inside := (agree "mcpServers").mp List.mem_cons_self
            rw [absent] at inside
            cases inside
          · intro name member
            exact List.mem_singleton.mp ((agree name).mpr member)
        · intro either
          rcases either with bare | ⟨other, same, present, only⟩
          · exact absurd bare (by simp [Members.get_cons])
          · cases same
            intro name
            constructor
            · intro member
              rcases List.mem_singleton.mp member with rfl
              cases servers with
              | nil => exact absurd rfl present
              | cons first rest =>
                  have named := only first.1 List.mem_cons_self
                  exact List.mem_cons.mpr (.inl named.symm)
            · intro member
              exact List.mem_singleton.mpr (only name member)
      next => cases normalized

theorem exists_message (reports : ReportsFailure event name) (render : Value → String) :
    ∃ texts status, failureText name status ∈ texts ∧
      Claude.parseClaudeStreamJson render event =
        some [.system (mcpFailurePrefix ++ ", ".intercalate texts)] := by
  rcases reports with ⟨system, init, server, member, status, named, stated, unconnected⟩
  have failed : Claude.failedServer server = some (failureText name status) := by
    rw [Claude.failedServer, named, stated]
    exact if_pos unconnected
  have written := List.mem_filterMap.mpr ⟨server, member, failed⟩
  refine ⟨_, status, written, ?_⟩
  have present : ((event.getArray "mcp_servers").getD []).filterMap Claude.failedServer ≠ [] :=
    List.ne_nil_of_mem written
  rw [Claude.parseClaudeStreamJson, system]
  dsimp only
  rw [if_pos init, if_neg present]
  rfl

def aloneEvent (name : String) : Value :=
  .object [("type", .string "system"), ("subtype", .string "init"),
    ("mcp_servers", .array [.object [("name", .string name), ("status", .string "failed")]])]

theorem parse_aloneEvent (render : Value → String) (name : String) :
    Claude.parseClaudeStreamJson render (aloneEvent name) =
      some [.system (mcpFailurePrefix ++ ", ".intercalate [failureText name "failed"])] := by
  rfl

theorem mem_names_workflowFailures {configured : List String} {content : String} :
    (∃ entry ∈ workflowFailures configured content, entry.name = name) ↔
      name ∈ configured ∧
        name ∈ (parseMcpFailureServerNames content).map McpFailureEntry.name := by
  rw [workflowFailures, List.mem_map]
  constructor
  · intro found
    rcases found with ⟨entry, member, rfl⟩
    rcases List.mem_filter.mp member with ⟨inside, known⟩
    exact ⟨of_decide_eq_true known, entry, inside, rfl⟩
  · intro found
    rcases found with ⟨known, entry, inside, rfl⟩
    exact ⟨entry, List.mem_filter.mpr ⟨inside, decide_eq_true known⟩, rfl⟩

end McpFailures

open McpFailures

/-- The executor knows the servers of an accepted file exactly if it names them without a
wrapper, and by names that can be read back. -/
theorem loadConfiguredMcpServerNames_iff (files : McpFiles) (mcpPath cwd : String)
    (envSource : String → Option String) (loaded : LoadedMcpConfig)
    (accepted : loadMcpConfig files mcpPath cwd envSource = .ok loaded) :
    KnowsServers files mcpPath cwd loaded ↔ NamesDirectly files (mcpFullPath mcpPath cwd) := by
  rcases loadMcpConfig_ok_iff.mp accepted with ⟨members, servers, reads, normalized, -, names⟩
  have configured := loadConfiguredMcpServerNames_of_reads reads
  have direct : NamesDirectly files (mcpFullPath mcpPath cwd) ↔
      (∀ name, name ∈ members.keys ↔ name ∈ servers.keys) ∧
        ∀ name ∈ members.keys, Readable name := by
    rw [names_iff normalized]
    constructor
    · intro found
      rcases found with ⟨other, readsOther, condition⟩
      rw [reads.unique readsOther]
      exact condition
    · intro condition
      exact ⟨members, reads, condition⟩
  rw [direct]
  constructor
  · intro known
    have agree : ∀ name, name ∈ members.keys ↔ name ∈ servers.keys := by
      intro name
      have same := known.names name
      rw [configured, names] at same
      exact same
    refine ⟨agree, ?_⟩
    intro name member
    have inside : name ∈ loaded.serverNames := by
      rw [names]
      exact (agree name).mp member
    have reports : ReportsFailure (aloneEvent name) name :=
      ⟨rfl, rfl, _, List.mem_cons_self, "failed", rfl, rfl, by decide⟩
    rcases known.forwarded (fun _ => "") (aloneEvent name) name reports inside with
      ⟨content, message, forwarded⟩
    rw [parse_aloneEvent] at message
    cases message
    have entry := (mem_names_workflowFailures.mp forwarded).2
    rcases (mem_names_parse (List.cons_ne_nil _ _)).mp entry with
      ⟨shown, text, only, part, piece, read⟩
    rw [List.mem_singleton.mp only] at piece
    exact readable_of_alone shown piece read
  · intro condition
    rcases condition with ⟨agree, readable⟩
    refine ⟨?_, ?_⟩
    · intro name
      rw [configured, names]
      exact agree name
    · intro render event name reports inside
      rcases exists_message reports render with ⟨texts, status, written, message⟩
      refine ⟨_, message, ?_⟩
      rw [names] at inside
      have known := (agree name).mpr inside
      rw [mem_names_workflowFailures, configured, mem_names_parse (List.ne_nil_of_mem written)]
      rcases (readable name known).exists_part status with ⟨part, piece, read⟩
      exact ⟨known, (readable name known).shown, _, written, part, piece, read⟩

namespace McpFailures

theorem readable_github : Readable "github" where
  shown := by decide
  trimmed := by decide
  noStatus := by decide
  noComma := by decide
  ends := by decide

end McpFailures

theorem loadConfiguredMcpServerNames_github :
    KnowsServers (githubFiles false) "mcp.json" "/repo" githubLoaded := by
  have accepted : loadMcpConfig (githubFiles false) "mcp.json" "/repo" (fun _ => none) =
      .ok githubLoaded := by
    decide +kernel
  apply (loadConfiguredMcpServerNames_iff _ _ _ _ _ accepted).mpr
  refine ⟨[("github", githubServer)], ⟨"document", by decide +kernel, rfl⟩, .inl rfl, ?_⟩
  intro name member
  rw [List.mem_singleton.mp member]
  exact readable_github

theorem loadConfiguredMcpServerNames_wrapped :
    loadMcpConfig (githubFiles true) "mcp.json" "/repo" (fun _ => none) = .ok githubLoaded ∧
      loadConfiguredMcpServerNames (githubFiles true) (some "mcp.json") "/repo" =
        ["mcpServers"] ∧
      workflowFailures
        (loadConfiguredMcpServerNames (githubFiles true) (some "mcp.json") "/repo")
        "MCP server connection failed: github (failed)" = [] ∧
      ¬KnowsServers (githubFiles true) "mcp.json" "/repo" githubLoaded := by
  have configured : loadConfiguredMcpServerNames (githubFiles true) (some "mcp.json") "/repo" =
      ["mcpServers"] := by
    decide +kernel
  refine ⟨by decide +kernel, configured, by decide +kernel, ?_⟩
  intro known
  have inside := (known.names "github").mpr List.mem_cons_self
  rw [configured] at inside
  exact absurd inside (by decide)

end HarnessAgent
