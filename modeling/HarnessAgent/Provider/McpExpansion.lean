import HarnessAgent.Foundation.Identifier
import HarnessAgent.Foundation.JsonTree
import HarnessAgent.Foundation.LeftmostReading
import HarnessAgent.Provider.McpConfig

/-! # What the expansion of an MCP config changes

The texts in the `env` and `headers` of the servers are read once from left to right, and
each reference to a variable becomes its value. Everything else of the document stays.
-/

namespace HarnessAgent

open LeftmostReading Results

namespace McpConfig

/-! ## References to variables -/

inductive IsReference : List Char → List Char → List Char → Prop
  | bare {name rest : List Char} (named : IsIdentifier isVariableStart isVariablePart name)
      (ends : ∀ character ∈ rest.head?, isVariablePart character = false) :
      IsReference ('$' :: (name ++ rest)) name rest
  | braced {name rest : List Char} (named : IsIdentifier isVariableStart isVariablePart name) :
      IsReference ('$' :: '{' :: (name ++ '}' :: rest)) name rest

theorem envVariable_eq_some_iff {text name rest : List Char} :
    envVariable text = some (name, rest) ↔ IsReference text name rest := by
  constructor
  · intro found
    unfold envVariable at found
    split at found
    · split at found
      · next read =>
          cases found
          rcases identifier_eq_some_iff.mp read with ⟨rfl, named, -⟩
          exact .braced named
      · cases found
    · rcases identifier_eq_some_iff.mp found with ⟨rfl, named, ends⟩
      exact .bare named ends
    · cases found
  · intro reference
    cases reference with
    | bare named ends =>
        have read := identifier_eq_some_iff.mpr ⟨rfl, named, ends⟩
        rcases named with ⟨first, parts, rfl, starts, -⟩
        rw [envVariable]
        · exact read
        · intro remaining split
          rw [List.cons_append] at split
          cases split
          cases starts
    | braced named =>
        have read : variableName (name ++ '}' :: rest) = some (name, '}' :: rest) := by
          apply identifier_eq_some_iff.mpr
          refine ⟨rfl, named, ?_⟩
          intro character first
          cases first
          rfl
        rw [envVariable, read]
        rfl

theorem lawful_isReference : Lawful IsReference where
  unique := by
    intro text name other rest remaining reference otherReference
    have found := envVariable_eq_some_iff.mpr reference
    rw [envVariable_eq_some_iff.mpr otherReference] at found
    cases found
    exact ⟨rfl, rfl⟩
  splits := by
    intro text name rest reference
    cases reference with
    | bare => exact ⟨'$', name, rfl⟩
    | braced => exact ⟨'$', '{' :: (name ++ ['}']), by simp⟩

/-! ## Texts -/

section Texts

variable (envSource : String → Option String)

def valueOf (name : List Char) : List Char :=
  ((envSource (String.ofList name)).getD "").toList

def missingName (name : List Char) : List String :=
  if (envSource (String.ofList name)).isNone then [String.ofList name] else []

def expandText (text : String) : String :=
  String.ofList (expandLoop envSource 0 text.toList).1

def missingIn (text : String) : List String :=
  (expandLoop envSource 0 text.toList).2

/-- In the only reading of a text, references become their values, and the gaps between
them stay. Missing are the references without a value, in their order. -/
def ReadsOnce (text expanded : String) (missing : List String) : Prop :=
  ∃ parts last, Reads IsReference text.toList parts last ∧
    (∀ others remaining, Reads IsReference text.toList others remaining →
      others = parts ∧ remaining = last) ∧
    expanded.toList = replaced (valueOf envSource) parts last ∧
    missing = (parts.map fun part => String.ofList part.2).filter
      fun name => (envSource name).isNone

theorem expandLoop_eq_scan (skip : Nat) (text : List Char) :
    expandLoop envSource skip text =
      ((scan envVariable skip text).flatMap
        (Sum.elim (fun character => [character]) (valueOf envSource)),
      (scan envVariable skip text).flatMap
        (Sum.elim (fun _ => []) (missingName envSource))) := by
  induction text generalizing skip with
  | nil => cases skip with
    | zero => rfl
    | succ skip => rfl
  | cons character rest induction =>
      cases skip with
      | succ skip => exact induction skip
      | zero =>
          rw [expandLoop, scan]
          cases found : envVariable (character :: rest) with
          | none =>
              dsimp only
              rw [induction 0]
              rfl
          | some reference =>
              dsimp only
              rw [induction, List.flatMap_cons, List.flatMap_cons, Sum.elim_inr, Sum.elim_inr,
                valueOf, missingName]
              cases envSource (String.ofList reference.1) with
              | none => rfl
              | some value => rfl

theorem missingName_flatMap (names : List (List Char)) :
    names.flatMap (missingName envSource) =
      (names.map String.ofList).filter fun name => (envSource name).isNone := by
  induction names with
  | nil => rfl
  | cons name names induction =>
      rw [List.flatMap_cons, List.map_cons, List.filter_cons, induction, missingName]
      split
      · rfl
      · rfl

theorem readsOnce_expandText (text : String) :
    ReadsOnce envSource text (expandText envSource text) (missingIn envSource text) := by
  rcases exists_reads_scan lawful_isReference (fun _ _ _ => envVariable_eq_some_iff)
    text.toList with ⟨parts, last, reads, scanned⟩
  refine ⟨parts, last, reads, fun others remaining => reads.unique lawful_isReference, ?_, ?_⟩
  · rw [expandText, String.toList_ofList, expandLoop_eq_scan, scanned]
    exact flatMap_items (valueOf envSource) parts last
  · have names : (parts.map fun part => String.ofList part.2) =
        (parts.map Prod.snd).map String.ofList := by
      rw [List.map_map]
      rfl
    rw [missingIn, expandLoop_eq_scan, scanned, names, ← missingName_flatMap, List.flatMap_map]
    exact flatMap_items_values (missingName envSource) parts last

end Texts

/-! ## Documents -/

section Documents

variable (envSource : String → Option String)

def expandedValue : Value → Value
  | .string text => .string (expandText envSource text)
  | other => other

def expandedRecord : Value → Value
  | .object record => .object (record.map fun member => (member.1, expandedValue envSource member.2))
  | other => other

def expandedServer : Value → Value
  | .object server =>
      .object (server.map fun member =>
        (member.1, if member.1 = "env" ∨ member.1 = "headers" then expandedRecord envSource member.2
          else member.2))
  | other => other

def missingInValue : Value → List String
  | .string text => missingIn envSource text
  | _ => []

def missingInRecord : Value → List String
  | .object record => record.flatMap fun member => missingInValue envSource member.2
  | _ => []

def missingInServer : Value → List String
  | .object server =>
      ((Members.get server "env").toList ++ (Members.get server "headers").toList).flatMap
        (missingInRecord envSource)
  | _ => []

def IsRecord (value : Value) : Prop :=
  ∃ record, value = .object record ∧ ∀ member ∈ record, ∃ text, member.2 = .string text

def IsServer (value : Value) : Prop :=
  ∃ server : Members, value = .object server ∧
    ∀ field, field = "env" ∨ field = "headers" →
      ∀ record, server.get field = some record → IsRecord record

variable {envSource}

variable {result : Members × List String}

theorem expandEnvVarsInRecord_eq_ok_iff {fieldPath : String} {record : Members} :
    expandEnvVarsInRecord envSource fieldPath record = .ok result ↔
      (∀ member ∈ record, ∃ text, member.2 = .string text) ∧
        result = (record.map fun member => (member.1, expandedValue envSource member.2),
          record.flatMap fun member => missingInValue envSource member.2) := by
  induction record generalizing result with
  | nil =>
      constructor
      · intro done
        cases done
        exact ⟨List.forall_mem_nil _, rfl⟩
      · intro done
        rw [done.2]
        rfl
  | cons member rest induction =>
      rcases member with ⟨key, value⟩
      rw [List.forall_mem_cons]
      cases value with
      | string text =>
          rw [expandEnvVarsInRecord]
          constructor
          · intro done
            rcases bind_eq_ok.mp done with ⟨later, expandedRest, last⟩
            cases last
            rcases induction.mp expandedRest with ⟨texts, rfl⟩
            exact ⟨⟨⟨text, rfl⟩, texts⟩, rfl⟩
          · intro done
            rcases done with ⟨⟨-, texts⟩, rfl⟩
            apply bind_eq_ok.mpr
            exact ⟨_, induction.mpr ⟨texts, rfl⟩, rfl⟩
      | _ =>
          refine iff_of_false error_ne_ok ?_
          intro done
          rcases done.1.1 with ⟨text, isText⟩
          cases isText

variable {serverName : String}

theorem expandField_eq_ok_iff {field : String} (nodup : server.keys.Nodup) :
    expandField envSource serverName field server = .ok result ↔
      (∀ record, server.get field = some record → IsRecord record) ∧
        result = (server.changed (expandedRecord envSource) field,
          (server.get field).toList.flatMap (missingInRecord envSource)) := by
  rw [expandField]
  cases found : server.get field with
  | none =>
      have absent : field ∉ server.keys := by
        rw [Members.mem_keys_iff, found]
        exact Bool.false_ne_true
      rw [Members.changed_of_not_mem _ absent]
      constructor
      · intro done
        cases done
        exact ⟨fun record present => (nomatch present), rfl⟩
      · intro done
        rw [done.2]
        rfl
  | some value =>
      cases value with
      | object record =>
          dsimp only
          have placed := Members.insert_eq_changed (expandedRecord envSource) nodup found
          rw [← placed, Option.toList_some, List.flatMap_singleton]
          constructor
          · intro done
            rcases bind_eq_ok.mp done with ⟨expanded, ran, last⟩
            cases last
            rcases expandEnvVarsInRecord_eq_ok_iff.mp ran with ⟨texts, rfl⟩
            refine ⟨?_, rfl⟩
            intro own present
            cases present
            exact ⟨record, rfl, texts⟩
          · intro done
            rcases done with ⟨isRecord, rfl⟩
            rcases isRecord _ rfl with ⟨own, same, texts⟩
            cases same
            apply bind_eq_ok.mpr
            exact ⟨_, expandEnvVarsInRecord_eq_ok_iff.mpr ⟨texts, rfl⟩, rfl⟩
      | _ =>
          refine iff_of_false error_ne_ok ?_
          intro done
          rcases done.1 _ rfl with ⟨record, same, -⟩
          cases same

theorem changed_env_headers (change : Value → Value) (server : Members) :
    (server.changed change "env").changed change "headers" = server.map fun member =>
      (member.1, if member.1 = "env" ∨ member.1 = "headers" then change member.2
        else member.2) := by
  rw [Members.changed, Members.changed, List.map_map]
  apply List.map_congr_left
  intro member _
  dsimp only [Function.comp]
  by_cases isEnv : member.1 = "env"
  · have notHeaders : member.1 ≠ "headers" := by
      rw [isEnv]
      decide
    have either : member.1 = "env" ∨ member.1 = "headers" := .inl isEnv
    rw [if_pos isEnv, if_neg notHeaders, if_pos either]
  · rw [if_neg isEnv]
    by_cases isHeaders : member.1 = "headers"
    · rw [if_pos isHeaders, if_pos (.inr isHeaders)]
    · rw [if_neg isHeaders, if_neg (not_or.mpr ⟨isEnv, isHeaders⟩)]

theorem expandServer_object_eq_ok_iff {server : Members} (nodup : server.keys.Nodup) :
    expandServer envSource serverName (.object server) = .ok result ↔
      IsServer (.object server) ∧ .object result.1 = expandedServer envSource (.object server) ∧
        result.2 = missingInServer envSource (.object server) := by
  have nodupChanged : (server.changed (expandedRecord envSource) "env").keys.Nodup := by
    rw [Members.keys_changed]
    exact nodup
  have headers : (server.changed (expandedRecord envSource) "env").get "headers" =
      server.get "headers" := Members.get_changed_other _ _ (by decide)
  have missing : missingInServer envSource (.object server) =
      (server.get "env").toList.flatMap (missingInRecord envSource) ++
        (server.get "headers").toList.flatMap (missingInRecord envSource) :=
    List.flatMap_append
  rw [expandServer, expandedServer, ← changed_env_headers, missing]
  constructor
  · intro done
    rcases bind_eq_ok.mp done with ⟨env, envDone, rest⟩
    rcases bind_eq_ok.mp rest with ⟨own, headersDone, last⟩
    rcases (expandField_eq_ok_iff nodup).mp envDone with ⟨envRecord, rfl⟩
    rcases (expandField_eq_ok_iff nodupChanged).mp headersDone with ⟨headersRecord, rfl⟩
    cases last
    rw [headers] at headersRecord
    refine ⟨⟨server, rfl, ?_⟩, rfl, ?_⟩
    · intro field named
      rcases named with rfl | rfl
      · exact envRecord
      · exact headersRecord
    · dsimp only
      rw [headers]
  · intro done
    rcases result with ⟨expanded, names⟩
    rcases done with ⟨⟨own, same, records⟩, placed, listed⟩
    cases same
    cases placed
    dsimp only at listed
    subst listed
    apply bind_eq_ok.mpr
    refine ⟨_, (expandField_eq_ok_iff nodup).mpr ⟨records "env" (.inl rfl), rfl⟩, ?_⟩
    apply bind_eq_ok.mpr
    refine ⟨_, (expandField_eq_ok_iff nodupChanged).mpr ⟨?_, rfl⟩, ?_⟩
    · rw [headers]
      exact records "headers" (.inr rfl)
    · rw [headers]
      rfl

theorem expandServer_eq_ok_iff (distinct : server.Distinct) :
    expandServer envSource serverName server = .ok result ↔
      IsServer server ∧ .object result.1 = expandedServer envSource server ∧
        result.2 = missingInServer envSource server := by
  cases server with
  | object server =>
      rw [Value.Distinct] at distinct
      exact expandServer_object_eq_ok_iff distinct.1
  | _ =>
      refine iff_of_false error_ne_ok ?_
      intro done
      rcases done.1 with ⟨server, same, -⟩
      cases same

theorem expandEnvVars_eq_ok_iff (distinct : Members.Distinct config) :
    expandEnvVars envSource config = .ok result ↔
      (∀ entry ∈ config, IsServer entry.2) ∧
        result = (config.map fun entry => (entry.1, expandedServer envSource entry.2),
          config.flatMap fun entry => missingInServer envSource entry.2) := by
  induction config generalizing result with
  | nil =>
      constructor
      · intro done
        cases done
        exact ⟨List.forall_mem_nil _, rfl⟩
      · intro done
        rw [done.2]
        rfl
  | cons entry rest induction =>
      rcases entry with ⟨serverName, server⟩
      rw [Members.Distinct] at distinct
      rw [List.forall_mem_cons, expandEnvVars]
      constructor
      · intro done
        rcases bind_eq_ok.mp done with ⟨own, ownDone, more⟩
        rcases bind_eq_ok.mp more with ⟨later, laterDone, last⟩
        cases last
        rcases (expandServer_eq_ok_iff distinct.1).mp ownDone with ⟨isServer, placed, listed⟩
        rcases (induction distinct.2).mp laterDone with ⟨others, rfl⟩
        refine ⟨⟨isServer, others⟩, ?_⟩
        rw [List.map_cons, List.flatMap_cons, placed, listed]
      · intro done
        rcases done with ⟨⟨isServer, others⟩, rfl⟩
        rcases isServer with ⟨members, rfl, records⟩
        apply bind_eq_ok.mpr
        refine ⟨(members.map fun member => (member.1,
          if member.1 = "env" ∨ member.1 = "headers" then expandedRecord envSource member.2
          else member.2), missingInServer envSource (.object members)),
          (expandServer_eq_ok_iff distinct.1).mpr ⟨⟨members, rfl, records⟩, rfl, rfl⟩, ?_⟩
        apply bind_eq_ok.mpr
        exact ⟨_, (induction distinct.2).mpr ⟨others, rfl⟩, rfl⟩

end Documents

theorem distinct_of_normalizeMcpConfig (distinct : (Value.object parsed).Distinct)
    (normalized : normalizeMcpConfig parsed mcpPath = .ok servers) :
    (Value.object servers).Distinct := by
  rw [normalizeMcpConfig] at normalized
  split at normalized
  · cases normalized
    exact distinct
  · split at normalized
    · cases normalized
    · split at normalized
      · next found =>
          cases normalized
          rw [Value.Distinct] at distinct
          exact distinct.2.of_get found
      · cases normalized

end McpConfig

open McpConfig

/-- A config with servers is loaded exactly if they have the types they should have. Then it
is as it was but for the texts of `env` and `headers`, which are read once. -/
theorem loadMcpConfig_expands (files : McpFiles) (mcpPath cwd : String)
    (envSource : String → Option String) {parsed servers : Members}
    (reads : ReadsObject files (mcpFullPath mcpPath cwd) parsed)
    (normalized : normalizeMcpConfig parsed mcpPath = .ok servers) :
    ((∃ loaded, loadMcpConfig files mcpPath cwd envSource = .ok loaded) ↔
      ∀ entry ∈ servers, IsServer entry.2) ∧
    (∀ loaded, loadMcpConfig files mcpPath cwd envSource = .ok loaded →
      loaded.servers = (servers.map fun entry => (entry.1, expandedServer envSource entry.2)) ∧
      loaded.serverNames = servers.keys ∧
      loaded.missingVars = servers.flatMap fun entry => missingInServer envSource entry.2) ∧
    ∀ text, ReadsOnce envSource text (expandText envSource text) (missingIn envSource text) := by
  have distinct : Members.Distinct servers := by
    rcases reads with ⟨text, -, isObject⟩
    have whole := distinct_of_normalizeMcpConfig (files.distinct text _ isObject) normalized
    rw [Value.Distinct] at whole
    exact whole.2
  refine ⟨⟨?_, ?_⟩, ?_, readsOnce_expandText envSource⟩
  · intro accepted
    rcases accepted with ⟨loaded, accepted⟩
    rcases loadMcpConfig_ok_iff.mp accepted with ⟨other, own, again, same, done, -⟩
    cases reads.unique again
    cases normalized.symm.trans same
    exact ((expandEnvVars_eq_ok_iff distinct).mp done).1
  · intro isServer
    have done : expandEnvVars envSource servers = .ok _ :=
      (expandEnvVars_eq_ok_iff distinct).mpr ⟨isServer, rfl⟩
    exact ⟨⟨_, servers.keys, _⟩, loadMcpConfig_ok_iff.mpr
      ⟨parsed, servers, reads, normalized, done, rfl⟩⟩
  · intro loaded accepted
    rcases loadMcpConfig_ok_iff.mp accepted with ⟨other, own, again, same, done, names⟩
    cases reads.unique again
    cases normalized.symm.trans same
    have expanded := ((expandEnvVars_eq_ok_iff distinct).mp done).2
    exact ⟨(Prod.mk.inj expanded).1, names, (Prod.mk.inj expanded).2⟩

namespace McpConfig

def headersFirst : Members :=
  [("web", .object [("headers", .object [("Accept", .string "$A")]),
    ("env", .object [("TOKEN", .string "$B")])])]

def headersFirstFiles : McpFiles where
  read _ := .ok "document"
  fromStr _ := .ok (.object headersFirst)
  distinct text value parsed := by
    cases parsed
    simp [headersFirst, Value.Distinct, Members.Distinct, Members.keys]

theorem readsObject_headersFirst (path : String) :
    ReadsObject headersFirstFiles path headersFirst :=
  ⟨"document", rfl, rfl⟩

def missingInOrder (envSource : String → Option String) : Value → List String
  | .object server => server.flatMap fun member =>
      if member.1 = "env" ∨ member.1 = "headers" then missingInRecord envSource member.2 else []
  | _ => []

end McpConfig

theorem loadMcpConfig_expands_headersFirst :
    (∃ loaded, loadMcpConfig headersFirstFiles "/mcp.json" "/" (fun _ => none) = .ok loaded) ∧
      ∀ loaded, loadMcpConfig headersFirstFiles "/mcp.json" "/" (fun _ => none) = .ok loaded →
        loaded.missingVars = ["B", "A"] := by
  have facts := loadMcpConfig_expands headersFirstFiles "/mcp.json" "/" (fun _ => none)
    (readsObject_headersFirst _) (rfl : normalizeMcpConfig headersFirst "/mcp.json" = _)
  refine ⟨⟨_, rfl⟩, ?_⟩
  intro loaded accepted
  exact (facts.2.1 loaded accepted).2.2

/-- The variables of an environment are listed before those of headers that stand before
it. -/
theorem missingVars_out_of_order : ∃ loaded,
    loadMcpConfig headersFirstFiles "/mcp.json" "/" (fun _ => none) = .ok loaded ∧
      loaded.missingVars ≠
        headersFirst.flatMap fun entry => missingInOrder (fun _ => none) entry.2 := by
  refine ⟨_, rfl, ?_⟩
  decide +kernel

end HarnessAgent
