import HarnessAgent.Executor.McpFailures

/-! # Messages about MCP servers

The provider writes the failed servers into a message, and the executor reads them from
it. Nothing is escaped, so a name or a status that has a separator in it is read as
something else.
-/

namespace HarnessAgent

open Text

namespace McpFailures

structure FailedServer where
  name : String
  status : String
  deriving DecidableEq, Repr

def failedOf (server : Value) : Option FailedServer :=
  match server.getStr "name", server.getStr "status" with
  | some name, some status => if status ≠ "connected" then some ⟨name, status⟩ else none
  | _, _ => none

structure Reports (event : Value) (servers : List FailedServer) : Prop where
  system : event.getStr "type" = some "system"
  init : event.getStr "subtype" = some "init"
  servers : ((event.getArray "mcp_servers").getD []).filterMap failedOf = servers

def FailedServer.text (server : FailedServer) : String :=
  failureText server.name server.status

def FailedServer.entry (server : FailedServer) : McpFailureEntry where
  name := server.name
  segment := server.text

def ReadBack (servers : List FailedServer) : Prop :=
  ∀ render event, Reports event servers →
    ∃ content, Claude.parseClaudeStreamJson render event = some [.system content] ∧
      parseMcpFailureServerNames content = servers.map FailedServer.entry

theorem failedServer_eq (server : Value) :
    Claude.failedServer server = (failedOf server).map FailedServer.text := by
  rw [Claude.failedServer, failedOf]
  cases server.getStr "name" with
  | none => rfl
  | some name =>
      cases server.getStr "status" with
      | none => rfl
      | some status =>
          change (if status ≠ "connected" then some (failureText name status) else none) =
            (if status ≠ "connected" then some (FailedServer.mk name status) else none).map
              FailedServer.text
          split
          · rfl
          · rfl

variable {servers : List FailedServer}

theorem parse_of_reports (present : servers ≠ []) (reports : Reports event servers)
    (render : Value → String) :
    Claude.parseClaudeStreamJson render event =
      some [.system (mcpFailurePrefix ++ ", ".intercalate (servers.map FailedServer.text))] := by
  have written : ((event.getArray "mcp_servers").getD []).filterMap Claude.failedServer =
      servers.map FailedServer.text := by
    rw [← reports.servers, List.map_filterMap]
    apply List.filterMap_congr
    intro server member
    exact failedServer_eq server
  have shown : servers.map FailedServer.text ≠ [] := by
    intro absent
    exact present (List.map_eq_nil_iff.mp absent)
  rw [Claude.parseClaudeStreamJson, reports.system]
  dsimp only
  rw [if_pos reports.init, written, if_neg shown]
  rfl

def eventOf (servers : List FailedServer) : Value :=
  .object [("type", .string "system"), ("subtype", .string "init"),
    ("mcp_servers", .array (servers.map fun server =>
      .object [("name", .string server.name), ("status", .string server.status)]))]

theorem reports_eventOf (failed : ∀ server ∈ servers, server.status ≠ "connected") :
    Reports (eventOf servers) servers where
  system := rfl
  init := rfl
  servers := by
    change (servers.map fun server => Value.object [("name", .string server.name),
      ("status", .string server.status)]).filterMap failedOf = servers
    induction servers with
    | nil => rfl
    | cons server servers induction =>
        have reported : failedOf (.object [("name", .string server.name),
            ("status", .string server.status)]) = some server :=
          if_pos (failed server List.mem_cons_self)
        rw [List.map_cons, List.filterMap_cons_some reported,
          induction fun other member => failed other (List.mem_cons_of_mem server member)]

theorem firstEntries_of_nodup (distinct : (entries.map McpFailureEntry.name).Nodup)
    (fresh : ∀ entry ∈ entries, entry.name ∉ seen) : firstEntries seen entries = entries := by
  induction entries generalizing seen with
  | nil => rfl
  | cons entry rest induction =>
      rw [List.map_cons, List.nodup_cons] at distinct
      rw [firstEntries, if_neg (fresh entry List.mem_cons_self)]
      apply congrArg (entry :: ·)
      apply induction distinct.2
      intro other member known
      rcases List.mem_cons.mp known with same | old
      · apply distinct.1
        rw [← same]
        exact List.mem_map_of_mem member
      · exact fresh other (List.mem_cons_of_mem entry member) old

theorem mem_of_mem_firstEntries (member : entry ∈ firstEntries seen entries) : entry ∈ entries := by
  induction entries generalizing seen with
  | nil => exact member
  | cons first rest induction =>
      rw [firstEntries] at member
      split at member
      · exact List.mem_cons_of_mem first (induction member)
      · rcases List.mem_cons.mp member with same | later
        · rw [same]
          exact List.mem_cons_self
        · exact List.mem_cons_of_mem first (induction later)

structure ReadableServer (server : FailedServer) : Prop where
  name : Readable server.name
  status : ¬[',', ' '] <:+: server.status.toList

theorem toList_text (server : FailedServer) :
    server.text.toList = server.name.toList ++ ' ' :: '(' :: (server.status.toList ++ [')']) := by
  simp [FailedServer.text, failureText]

theorem infix_text_iff (server : FailedServer) :
    [',', ' '] <:+: server.text.toList ↔
      [',', ' '] <:+: server.name.toList ∨ server.name.toList.getLast? = some ',' ∨
        [',', ' '] <:+: server.status.toList := by
  have chars : server.text.toList =
      server.name.toList ++ ([' ', '('] ++ (server.status.toList ++ [')'])) := by
    rw [toList_text]
    rfl
  have paren : ¬[',', ' '] <:+: [' ', '('] := by decide
  have closed : ¬[',', ' '] <:+: [')'] := not_infix_of_short (by decide)
  rw [chars, pair_infix_append, pair_infix_append, pair_infix_append]
  simp [paren, closed]
  tauto

theorem ReadableServer.failureEntry_eq (readable : ReadableServer server) :
    failureEntry server.text.toList = some server.entry := by
  have name := readable.name
  have shown : ¬Blank server.name.toList :=
    not_blank_of_trim_eq (fun empty => name.shown (String.toList_eq_nil_iff.mp empty)) name.trimmed
  have status : ¬Blank (' ' :: '(' :: (server.status.toList ++ [')'])) := by
    intro blank
    exact absurd (blank '(' (by simp)) (by decide)
  have ends : trimEnd (' ' :: '(' :: (server.status.toList ++ [')'])) =
      ' ' :: '(' :: (server.status.toList ++ [')']) :=
    List.rdropWhile_concat_neg _ (' ' :: '(' :: server.status.toList) ')' (by decide)
  have whole : trim server.text.toList = server.text.toList := by
    rw [toList_text, trim, trimStart_append_of_not_blank shown,
      trimStart_eq_of_trim_eq name.trimmed, trimEnd_append_of_not_blank status, ends]
  apply failureEntry_eq_some_iff.mpr
  refine ⟨name.shown, ?_, whole⟩
  rw [whole, toList_text, segmentName, beforePair_append (by decide) name.noStatus, name.trimmed]
  rfl

theorem readableServer_of_part (member : part ∈ splitPair ',' ' ' text)
    (read : failureEntry part = some server.entry) : ReadableServer server := by
  rcases failureEntry_eq_some_iff.mp read with ⟨shown, named, whole⟩
  have plain : ¬[',', ' '] <:+: server.text.toList := by
    intro inside
    apply not_infix_of_mem_splitPair member
    apply inside.trans
    change trim part = server.text.toList at whole
    rw [← whole]
    exact trim_isInfix part
  rw [infix_text_iff, not_or, not_or] at plain
  exact ⟨readable_of_part shown member named plain.2.1, plain.2.2⟩

theorem filterMap_texts (readable : ∀ server ∈ servers, ReadableServer server) :
    ((servers.map FailedServer.text).flatMap fun text =>
      splitPair ',' ' ' text.toList).filterMap failureEntry = servers.map FailedServer.entry := by
  induction servers with
  | nil => rfl
  | cons server servers induction =>
      have here := readable server List.mem_cons_self
      have plain : ¬[',', ' '] <:+: server.text.toList := by
        rw [infix_text_iff, not_or, not_or]
        exact ⟨here.name.noComma, here.name.ends, here.status⟩
      rw [List.map_cons, List.flatMap_cons, splitPair_of_not_infix plain, List.singleton_append,
        List.filterMap_cons_some here.failureEntry_eq,
        induction fun other member => readable other (List.mem_cons_of_mem server member)]
      rfl

/-- A list of failed servers is read back from its message exactly if no name has white
space at its ends, ` (`, `, ` or a comma at its end, and no status has `, ` in it. -/
theorem readBack_iff (servers : List FailedServer) (present : servers ≠ [])
    (distinct : (servers.map FailedServer.name).Nodup)
    (failed : ∀ server ∈ servers, server.status ≠ "connected") :
    ReadBack servers ↔ ∀ server ∈ servers, ReadableServer server := by
  have texts : servers.map FailedServer.text ≠ [] := by
    intro absent
    exact present (List.map_eq_nil_iff.mp absent)
  constructor
  · intro readBack server member
    have reports := reports_eventOf failed
    rcases readBack (fun _ => "") _ reports with ⟨content, written, read⟩
    rw [parse_of_reports present reports] at written
    cases written
    have inside : server.entry ∈ servers.map FailedServer.entry := List.mem_map_of_mem member
    rw [← read, parse_message texts] at inside
    rcases List.mem_filterMap.mp (mem_of_mem_firstEntries inside) with ⟨part, piece, same⟩
    rcases List.mem_flatMap.mp piece with ⟨text, -, piece⟩
    exact readableServer_of_part piece same
  · intro readable render event reports
    refine ⟨_, parse_of_reports present reports render, ?_⟩
    rw [parse_message texts, filterMap_texts readable]
    apply firstEntries_of_nodup
    · rw [List.map_map]
      exact distinct
    · intro entry member
      exact List.not_mem_nil

theorem readBack_github : ReadBack [⟨"github", "failed"⟩, ⟨"telegram", "needs-auth"⟩] := by
  have plain (text : String) (tested : occurs [',', ' '] text.toList = false) :
      ¬[',', ' '] <:+: text.toList := by
    rw [← occurs_iff_infix, tested]
    exact Bool.false_ne_true
  have telegram : Readable "telegram" := by
    refine ⟨by decide, by decide, ?_, plain "telegram" (by decide), by decide⟩
    rw [← occurs_iff_infix]
    decide
  apply (readBack_iff [⟨"github", "failed"⟩, ⟨"telegram", "needs-auth"⟩] (by decide) (by decide)
    (by decide)).mpr
  intro server member
  rcases List.mem_cons.mp member with rfl | later
  · exact ⟨readable_github, plain "failed" (by decide)⟩
  · rw [List.mem_singleton.mp later]
    exact ⟨telegram, plain "needs-auth" (by decide)⟩

/-- The name of a server is cut off at its own parenthesis. -/
theorem not_readBack_old :
    ¬∀ servers : List FailedServer, servers ≠ [] → (servers.map FailedServer.name).Nodup →
      (∀ server ∈ servers, server.name ≠ "") →
        (∀ server ∈ servers, server.status ≠ "connected") → ReadBack servers := by
  intro always
  have readBack := always [⟨"db (old)", "failed"⟩] (by decide) (by decide) (by decide) (by decide)
  have reports : Reports (eventOf [⟨"db (old)", "failed"⟩]) [⟨"db (old)", "failed"⟩] :=
    reports_eventOf (by decide)
  rcases readBack (fun _ => "") _ reports with ⟨content, written, read⟩
  rw [parse_of_reports (by decide) reports] at written
  cases written
  have shortened : (parseMcpFailureServerNames (mcpFailurePrefix ++
      ", ".intercalate ["db (old) (failed)"])).map McpFailureEntry.name = ["db"] := by
    decide +kernel
  have names := congrArg (List.map McpFailureEntry.name) read
  exact absurd (shortened.symm.trans names) (by decide)

end McpFailures

end HarnessAgent
