import HarnessAgent.Executor.Substitution
import HarnessAgent.Foundation.LexicalPath
import HarnessAgent.Provider.AgentSelection
import HarnessAgent.Schema.WorkflowDefinition

/-! # Files of nodes

The files that are written for a node: its artifact, outputs that are too long to stand
in a script, and the agents of an OpenCode session. Their paths are joined from a
directory of the run and the identifiers of the definition, of which validation only
requires that they are not blank.
-/

namespace HarnessAgent

open LexicalPath LexicalPath.Place

namespace NodeFiles

/-! ## Paths -/

def writeNodeArtifact (artifactsDir nodeId outputType : Path) : List Path :=
  let nodeDir := join artifactsDir nodeId
  [join nodeDir (outputType ++ ".md".toList), join nodeDir (outputType ++ ".meta.json".toList)]

section Agents

variable (toLowercase : List Char → List Char)

def sessionCwd (cwd nodeId : Path) : Path :=
  join (join cwd ".archon-opencode".toList) nodeId

def agentsDirectory (cwd : Path) : Path :=
  join (join cwd ".opencode".toList) "agents".toList

def agentFile (key : String) : List Char :=
  "archon-".toList ++ OpenCode.kebabLoop (toLowercase key.toList) [] false ++ ".md".toList

def materializeAgents (cwd : Path) (agents : AList fun _ : String => AgentDefinition) :
    List Path :=
  agentsDirectory cwd :: agents.keys.map fun key =>
    join (agentsDirectory cwd) (agentFile toLowercase key)

end Agents

def sendsSettings : DagNode → Bool
  | .command _ | .prompt _ | .loop _ => true
  | _ => false

def outputType (definition : WorkflowDefinition) (nodeId : String) : Option String :=
  (definition.nodes.find? fun other => other.node.id = nodeId).bind fun other =>
    other.node.base.outputType

/-! ## Writes -/

inductive Area
  | artifacts
  | log
  | cwd
  deriving DecidableEq

structure Layout where
  directory : Area → Path
  absolute : ∀ area, isAbsolute (directory area) = true
  apart : ∀ left right, (resolve (directory left)).Inside (resolve (directory right)) → left = right

/-- What the paths depend on besides the directories: the lowercase of texts, and the
provider that each node runs with. -/
structure Setting where
  toLowercase : List Char → List Char
  provider : NodeDefinition → String

inductive Writes (setting : Setting) (definition : WorkflowDefinition) (layout : Layout)
    (node : NodeDefinition) : Area → Path → Prop
  | artifact {type : String} {path : Path}
      (typed : outputType definition node.node.id = some type)
      (written : path ∈ writeNodeArtifact (layout.directory .artifacts) node.node.id.toList
        type.toList) :
      Writes setting definition layout node .artifacts path
  | output {serde : SerdeJson} {canWrite : String → Bool} {nodeOutputs : NodeOutputs}
      {text : String} {reference : OutputReference} {path value : String}
      (named : reference.nodeId = node.node.id)
      (occurs : HarnessAgent.Segment.reference reference ∈ Substitution.segments text)
      (written : (Substitution.replaceReference serde canWrite nodeOutputs true
        (some (String.ofList (layout.directory .log))) reference).file = some (path, value)) :
      Writes setting definition layout node .log path.toList
  | agents {agents : AList fun _ : String => AgentDefinition} {path : Path}
      (sends : sendsSettings node.node = true) (runs : setting.provider node = "opencode")
      (given : node.settings.agents = some agents) (present : agents.keys ≠ [])
      (written : path ∈ materializeAgents setting.toLowercase
        (sessionCwd (layout.directory .cwd) node.node.id.toList) agents) :
      Writes setting definition layout node .cwd path

/-- Files lie in their area's directory, and no two nodes with different identifiers
write the same one. -/
structure Separate (setting : Setting) (definition : WorkflowDefinition) (layout : Layout) :
    Prop where
  inside : ∀ node ∈ definition.nodes, ∀ area path,
    Writes setting definition layout node area path →
      (resolve path).Inside (resolve (layout.directory area))
  different : ∀ left ∈ definition.nodes, ∀ right ∈ definition.nodes,
    left.node.id ≠ right.node.id → ∀ area path other otherPath,
      Writes setting definition layout left area path →
        Writes setting definition layout right other otherPath →
          resolve path ≠ resolve otherPath

/-! ## Names -/

def artifactName (nodeId outputType : Path) : Path :=
  join nodeId (outputType ++ ".md".toList)

def agentsName (nodeId : Path) : Path :=
  agentsDirectory (join ".archon-opencode".toList nodeId)

inductive Names (setting : Setting) (definition : WorkflowDefinition) (node : NodeDefinition) :
    Area → Path → Prop
  | artifact {type : String} (typed : outputType definition node.node.id = some type) :
      Names setting definition node .artifacts
        (artifactName node.node.id.toList type.toList)
  | agents {agents : AList fun _ : String => AgentDefinition}
      (sends : sendsSettings node.node = true) (runs : setting.provider node = "opencode")
      (given : node.settings.agents = some agents) (present : agents.keys ≠ []) :
      Names setting definition node .cwd (agentsName node.node.id.toList)

/-- Every such name leads down, and different identifiers give different places. -/
structure WellNamed (setting : Setting) (definition : WorkflowDefinition) : Prop where
  descends : ∀ node ∈ definition.nodes, ∀ area name,
    Names setting definition node area name → Descends name
  different : ∀ left ∈ definition.nodes, ∀ right ∈ definition.nodes,
    left.node.id ≠ right.node.id → ∀ area name other,
      Names setting definition left area name → Names setting definition right area other →
        resolve name ≠ resolve other

/-! ## What is written lies at a name -/

inductive Below (setting : Setting) (definition : WorkflowDefinition) (node : NodeDefinition) :
    Area → Path → Prop
  | artifact {type : String} {ending : List Char}
      (typed : outputType definition node.node.id = some type)
      (kind : ending = ".md".toList ∨ ending = ".meta.json".toList) :
      Below setting definition node .artifacts (join node.node.id.toList (type.toList ++ ending))
  | output {rest : List Char}
      (identifier : ∀ character ∈ node.node.id.toList, Reference.isNodeIdPart character = true)
      (clean : '/' ∉ rest) (long : 2 ≤ rest.length) :
      Below setting definition node .log (node.node.id.toList ++ '.' :: rest)
  | agents (name : Names setting definition node .cwd (agentsName node.node.id.toList)) :
      Below setting definition node .cwd (agentsName node.node.id.toList)
  | agent {key : String}
      (name : Names setting definition node .cwd (agentsName node.node.id.toList)) :
      Below setting definition node .cwd
        (join (agentsName node.node.id.toList) (agentFile setting.toLowercase key))

variable {text : List Char}

theorem mem_kebabLoop (member : character ∈ OpenCode.kebabLoop text written inSep) :
    character ∈ written ∨ character = '-' ∨
      (Text.isAsciiDigit character || Text.isAsciiLetter character) = true := by
  induction text generalizing written inSep with
  | nil => exact .inl member
  | cons first rest induction =>
      rw [OpenCode.kebabLoop] at member
      split at member
      · next alphanumeric =>
          rcases induction member with earlier | later
          · rcases List.mem_append.mp earlier with front | own
            · split at front
              · rcases List.mem_append.mp front with known | hyphen
                · exact .inl known
                · exact .inr (.inl (List.mem_singleton.mp hyphen))
              · exact .inl front
            · rw [List.mem_singleton.mp own]
              exact .inr (.inr alphanumeric)
          · exact .inr later
      · exact induction member

theorem proper_agentFile (toLowercase : List Char → List Char) (key : String) :
    Proper (agentFile toLowercase key) ∧ Plain (agentFile toLowercase key) := by
  have starts : ∃ rest, agentFile toLowercase key = 'a' :: rest := ⟨_, rfl⟩
  obtain ⟨rest, begins⟩ := starts
  refine ⟨⟨?_, ?_⟩, ?_, ?_⟩
  · rw [begins]
    exact List.cons_ne_nil _ _
  · intro slash
    rcases List.mem_append.mp slash with front | ending
    · rcases List.mem_append.mp front with literal | name
      · exact absurd literal (by decide)
      · rcases mem_kebabLoop name with nothing | hyphen | alphanumeric
        · cases nothing
        · exact absurd hyphen (by decide)
        · exact absurd alphanumeric (by decide)
    · exact absurd ending (by decide)
  · rw [begins]
    intro same
    exact absurd (List.cons.inj same).1 (by decide)
  · rw [begins]
    intro same
    exact absurd (List.cons.inj same).1 (by decide)

theorem agentsDirectory_join {cwd : Path} (shown : session ≠ []) :
    agentsDirectory (join cwd session) = join cwd (agentsDirectory session) := by
  have inner : join session ".opencode".toList ≠ [] := join_ne_nil shown _ (by decide)
  rw [agentsDirectory, agentsDirectory, join_join _ _ shown, join_join _ _ inner]

variable {nodeId : Path}

theorem session_ne_nil (shown : nodeId ≠ []) : join ".archon-opencode".toList nodeId ≠ [] := by
  cases absolute : isAbsolute nodeId with
  | false => exact join_ne_nil (by decide) _ absolute
  | true =>
      rw [join, absolute, Bool.true_or, if_pos rfl]
      exact shown

theorem agentsDirectory_sessionCwd (cwd : Path) (shown : nodeId ≠ []) :
    agentsDirectory (sessionCwd cwd nodeId) = join cwd (agentsName nodeId) := by
  rw [sessionCwd, join_join _ _ (by decide), agentsDirectory_join (session_ne_nil shown)]
  rfl

theorem agentsName_ne_nil (shown : nodeId ≠ []) : agentsName nodeId ≠ [] :=
  join_ne_nil (join_ne_nil (session_ne_nil shown) _ (by decide)) _ (by decide)

/-! ### References -/

variable {rest : List Char} {reference : OutputReference}

theorem identifiers_of_parse (parsed : OutputReference.parse text = some (reference, rest)) :
    (∀ character ∈ reference.nodeId.toList, Reference.isNodeIdPart character = true) ∧
      ∀ field ∈ reference.field, ∀ character ∈ field.toList,
        Reference.isFieldPart character = true := by
  have start : ∀ {character : Char}, Reference.isStart character = true →
      Reference.isFieldPart character = true := by
    intro character starts
    rw [Reference.isFieldPart, starts, Bool.true_or]
  have part : ∀ {character : Char}, Reference.isFieldPart character = true →
      Reference.isNodeIdPart character = true := by
    intro character field
    rw [Reference.isNodeIdPart, field, Bool.true_or]
  simp only [OutputReference.parse, Option.bind_eq_bind, Option.bind_eq_some_iff] at parsed
  obtain ⟨afterDollar, -, ⟨nodeId, afterId⟩, readId, afterOutput, -, chosen⟩ := parsed
  have names : ∀ character ∈ nodeId, Reference.isNodeIdPart character = true := by
    intro character member
    rcases Text.mem_of_identifier readId character member with starts | inside
    · exact part (start starts)
    · exact inside
  split at chosen
  · next field _ readField =>
      cases chosen
      constructor
      · simpa using names
      · intro own member
        rw [← Option.some.inj member]
        intro character inside
        rw [String.toList_ofList] at inside
        obtain ⟨after, -, read⟩ := Option.bind_eq_some_iff.mp readField
        rcases Text.mem_of_identifier read character inside with starts | follows
        · exact start starts
        · exact follows
  · cases chosen
    constructor
    · simpa using names
    · intro own member
      cases member

theorem exists_parse_of_mem
    (member : HarnessAgent.Segment.reference reference ∈ Substitution.segmentLoop skip text) :
    ∃ front rest, OutputReference.parse front = some (reference, rest) := by
  fun_induction Substitution.segmentLoop skip text with
  | case1 => cases member
  | case2 skip first rest induction => exact induction member
  | case3 first rest own remaining parsed induction =>
      rcases List.mem_cons.mp member with same | later
      · cases same
        exact ⟨_, _, parsed⟩
      · exact induction later
  | case4 first rest absent induction =>
      rcases List.mem_cons.mp member with same | later
      · cases same
      · exact induction later

def offloadName (reference : OutputReference) : List Char :=
  match reference.field with
  | some field => reference.nodeId.toList ++ '.' :: (field.toList ++ ".nodeoutput".toList)
  | none => reference.nodeId.toList ++ ".nodeoutput".toList

theorem file_shellQuoteOrFile {nodeId directory text : String}
    (written : (shellQuoteOrFile canWrite value nodeId field (some directory)).file =
      some (path, text)) :
    path = joinPath directory (String.ofList (offloadName ⟨nodeId, field⟩)) := by
  have whole : String.ofList (offloadName ⟨nodeId, none⟩) = nodeId ++ ".nodeoutput" := by
    apply String.toList_inj.mp
    simp [offloadName]
  have part : ∀ own, String.ofList (offloadName ⟨nodeId, some own⟩) =
      nodeId ++ "." ++ own ++ ".nodeoutput" := by
    intro own
    apply String.toList_inj.mp
    simp [offloadName]
  by_cases long : nodeOutputFileThreshold < value.utf8ByteSize
  · cases field with
    | none =>
        simp only [shellQuoteOrFile, if_pos long] at written
        split at written
        · cases written
          rw [whole]
        · cases written
    | some own =>
        simp only [shellQuoteOrFile, if_pos long] at written
        split at written
        · cases written
          rw [part]
        · cases written
  · simp only [shellQuoteOrFile, if_neg long] at written
    cases written

theorem file_replaceReference {directory : String}
    (written : (Substitution.replaceReference serde canWrite nodeOutputs true (some directory)
      reference).file = some (path, value)) :
    path = joinPath directory (String.ofList (offloadName reference)) := by
  rcases reference with ⟨nodeId, field⟩
  cases found : nodeOutputs.lookup nodeId with
  | none =>
      simp only [Substitution.replaceReference, found, Substitution.emptyReplacement] at written
      cases written
  | some nodeOutput =>
      cases field with
      | none =>
          simp only [Substitution.replaceReference, found, Substitution.replaceValue,
            if_true] at written
          exact file_shellQuoteOrFile written
      | some own =>
          cases resolved : resolveNodeOutputField serde nodeOutput nodeId own with
          | error error =>
              simp only [Substitution.replaceReference, found, resolved] at written
              cases written
          | ok resolution =>
              cases resolution with
              | empty =>
                  simp only [Substitution.replaceReference, found, resolved,
                    Substitution.emptyReplacement] at written
                  cases written
              | value value =>
                  cases value with
                  | number number =>
                      simp only [Substitution.replaceReference, found, resolved] at written
                      cases written
                  | bool value =>
                      simp only [Substitution.replaceReference, found, resolved] at written
                      cases written
                  | _ =>
                      simp only [Substitution.replaceReference, found, resolved,
                        Substitution.replaceValue, if_true] at written
                      exact file_shellQuoteOrFile written

theorem toList_joinPath {directory : Path} (shown : directory ≠ [])
    (relative : isAbsolute name = false) :
    (joinPath (String.ofList directory) (String.ofList name)).toList = join directory name := by
  have other : ¬ String.ofList directory = "" := by
    intro same
    have texts := congrArg String.toList same
    rw [String.toList_ofList] at texts
    exact shown texts
  rw [joinPath, if_neg other, String.toList_ofList]
  by_cases ends : directory.getLast? = some '/'
  · simp [join, relative, shown, ends]
  · simp [join, relative, shown, ends]

/-! ### All files -/

theorem not_slash_of_fieldPart
    (parts : ∀ character ∈ text, Reference.isFieldPart character = true) : '/' ∉ text :=
  fun member => absurd (parts '/' member) (by decide)

variable {area : Area} {node : NodeDefinition}

theorem exists_name (shown : node.node.id.toList ≠ [])
    (writes : Writes setting definition layout node area path) :
    ∃ name, path = join (layout.directory area) name ∧
      Below setting definition node area name := by
  cases writes with
  | @artifact type path typed written =>
      rw [writeNodeArtifact, join_join _ _ shown, join_join _ _ shown] at written
      rcases List.mem_pair.mp written with rfl | rfl
      · exact ⟨_, rfl, .artifact typed (.inl rfl)⟩
      · exact ⟨_, rfl, .artifact typed (.inr rfl)⟩
  | @output serde canWrite nodeOutputs text reference path value named occurs written =>
      obtain ⟨front, rest, parsed⟩ := exists_parse_of_mem occurs
      obtain ⟨identifier, field⟩ := identifiers_of_parse parsed
      have directory : layout.directory .log ≠ [] := by
        intro nothing
        have absolute := layout.absolute .log
        rw [nothing] at absolute
        cases absolute
      have below : ∃ tail, offloadName reference = reference.nodeId.toList ++ '.' :: tail ∧
          '/' ∉ tail ∧ 2 ≤ tail.length := by
        rw [offloadName]
        cases fields : reference.field with
        | none => exact ⟨"nodeoutput".toList, rfl, by decide, by decide⟩
        | some own =>
            refine ⟨own.toList ++ ".nodeoutput".toList, rfl, ?_, by simp⟩
            intro slash
            rcases List.mem_append.mp slash with inside | ending
            · exact not_slash_of_fieldPart (field own (by rw [fields]; rfl)) inside
            · exact absurd ending (by decide)
      obtain ⟨tail, spelled, clean, long⟩ := below
      rw [named] at spelled identifier
      have relative : isAbsolute (offloadName reference) = false := by
        rw [spelled, isAbsolute_append shown]
        cases text : node.node.id.toList with
        | nil => exact absurd text shown
        | cons first others =>
            have part := identifier first (by rw [text]; exact List.mem_cons_self)
            have other : first ≠ '/' := by
              rintro rfl
              exact absurd part (by decide)
            simp [isAbsolute, other]
      rw [file_replaceReference written, toList_joinPath directory relative, spelled]
      exact ⟨_, rfl, .output identifier clean long⟩
  | @agents agents path sends runs given present written =>
      have name : Names setting definition node .cwd (agentsName node.node.id.toList) :=
        .agents sends runs given present
      rw [materializeAgents, agentsDirectory_sessionCwd _ shown] at written
      rcases List.mem_cons.mp written with rfl | file
      · exact ⟨_, rfl, .agents name⟩
      · obtain ⟨key, -, rfl⟩ := List.mem_map.mp file
        rw [join_join _ _ (agentsName_ne_nil shown)]
        exact ⟨_, rfl, .agent name⟩

/-! ## The condition -/

/-- The names of an artifact's two files, from where the last name begins. -/
theorem exists_artifact (shown : nodeId ≠ []) (type : List Char) :
    ∃ (place : Place) (stem : List Char), place.absolute = isAbsolute (join nodeId type) ∧
      ∀ ending, ending = ".md".toList ∨ ending = ".meta.json".toList →
        isAbsolute (join nodeId (type ++ ending)) = isAbsolute (join nodeId type) ∧
          resolve (join nodeId (type ++ ending)) =
            { place with trail := (stem ++ ending) :: place.trail } := by
  have whole : join nodeId type ≠ [] := by
    cases absolute : isAbsolute type with
    | false => exact join_ne_nil shown _ absolute
    | true =>
        rw [join, absolute, Bool.true_or, if_pos rfl]
        intro nothing
        rw [nothing] at absolute
        cases absolute
  obtain ⟨place, stem, root, longer⟩ := exists_stem whole
  refine ⟨place, stem, root, ?_⟩
  intro ending kind
  have clean : '/' ∉ ending ∧ 3 ≤ ending.length ∧ isAbsolute ending = false := by
    rcases kind with rfl | rfl <;> decide
  have kept : isAbsolute (type ++ ending) = isAbsolute type := by
    cases type with
    | nil => exact clean.2.2
    | cons first type => rfl
  rw [join_append nodeId kept]
  exact ⟨isAbsolute_append whole ending, longer ending clean.1 clean.2.1⟩

theorem descends_artifact (shown : nodeId ≠ []) (type : List Char)
    (kind : ending = ".md".toList ∨ ending = ".meta.json".toList) :
    Descends (join nodeId (type ++ ending)) ↔ Descends (artifactName nodeId type) := by
  obtain ⟨place, stem, -, endings⟩ := exists_artifact shown type
  obtain ⟨root, resolved⟩ := endings ending kind
  obtain ⟨textRoot, textResolved⟩ := endings ".md".toList (.inl rfl)
  rw [Descends, Descends, artifactName, root, resolved, textRoot, textResolved]

theorem artifact_ne (shownLeft : left ≠ []) (shownRight : right ≠ [])
    (leftKind : leftEnding = ".md".toList ∨ leftEnding = ".meta.json".toList)
    (rightKind : rightEnding = ".md".toList ∨ rightEnding = ".meta.json".toList)
    (apart : resolve (artifactName left leftType) ≠ resolve (artifactName right rightType)) :
    resolve (join left (leftType ++ leftEnding)) ≠ resolve (join right (rightType ++ rightEnding)) := by
  obtain ⟨place, stem, -, endings⟩ := exists_artifact shownLeft leftType
  obtain ⟨other, otherStem, -, otherEndings⟩ := exists_artifact shownRight rightType
  rw [artifactName, artifactName, (endings _ (.inl rfl)).2, (otherEndings _ (.inl rfl)).2] at apart
  rw [(endings leftEnding leftKind).2, (otherEndings rightEnding rightKind).2]
  intro same
  obtain ⟨absolutes, ups, names⟩ := Place.mk.inj same
  have trails := List.cons.inj names
  have last := congrArg List.getLast? trails.1
  apply apart
  -- The two endings differ in their last letter.
  have endings : leftEnding = rightEnding := by
    rcases leftKind with rfl | rfl <;> rcases rightKind with rfl | rfl
    · rfl
    · rw [List.getLast?_append_of_ne_nil _ (by decide),
        List.getLast?_append_of_ne_nil _ (by decide)] at last
      exact absurd last (by decide)
    · rw [List.getLast?_append_of_ne_nil _ (by decide),
        List.getLast?_append_of_ne_nil _ (by decide)] at last
      exact absurd last (by decide)
    · rfl
  rw [endings] at trails
  rw [List.append_cancel_right trails.1, trails.2, absolutes, ups]

theorem not_dot_of_idPart (parts : ∀ character ∈ text, Reference.isNodeIdPart character = true) :
    ∀ character ∈ text, (character != '.') = true := by
  intro character member
  cases dot : character != '.' with
  | true => rfl
  | false =>
      have same : character = '.' := by simpa using dot
      rw [same] at member
      exact absurd (parts '.' member) (by decide)

theorem proper_output {nodeId : List Char} (shown : nodeId ≠ [])
    (identifier : ∀ character ∈ nodeId, Reference.isNodeIdPart character = true)
    (clean : '/' ∉ rest) (long : 2 ≤ rest.length) :
    Proper (nodeId ++ '.' :: rest) ∧ Plain (nodeId ++ '.' :: rest) := by
  have more := List.length_pos_of_ne_nil shown
  have noSlash : '/' ∉ nodeId := fun member => absurd (identifier '/' member) (by decide)
  refine ⟨⟨by simp, ?_⟩, ?_, ?_⟩
  · intro slash
    rcases List.mem_append.mp slash with front | ending
    · exact noSlash front
    · rcases List.mem_cons.mp ending with dot | inside
      · exact absurd dot (by decide)
      · exact clean inside
  · intro same
    have lengths := congrArg List.length same
    simp only [List.length_append, List.length_cons, List.length_nil] at lengths
    omega
  · intro same
    have lengths := congrArg List.length same
    simp only [List.length_append, List.length_cons, List.length_nil] at lengths
    omega

theorem nodeId_of_output (leftId : ∀ character ∈ left, Reference.isNodeIdPart character = true)
    (rightId : ∀ character ∈ right, Reference.isNodeIdPart character = true)
    (same : left ++ '.' :: rest = right ++ '.' :: other) : left = right := by
  have first : ∀ {nodeId tail : List Char},
      (∀ character ∈ nodeId, Reference.isNodeIdPart character = true) →
        (nodeId ++ '.' :: tail).takeWhile (· != '.') = nodeId := by
    intro nodeId tail identifier
    rw [List.takeWhile_append_of_pos (not_dot_of_idPart identifier),
      List.takeWhile_cons_of_neg (by decide), List.append_nil]
  rw [← first leftId, same, first rightId]

section Condition

variable {setting : Setting} {definition : WorkflowDefinition}

theorem WellNamed.descends_below (named : WellNamed setting definition)
    (listed : node ∈ definition.nodes) (shown : node.node.id.toList ≠ [])
    (below : Below setting definition node area name) : Descends name := by
  cases below with
  | artifact typed kind =>
      exact (descends_artifact shown _ kind).mpr (named.descends node listed _ _ (.artifact typed))
  | output identifier clean long =>
      obtain ⟨proper, plain⟩ := proper_output shown identifier clean long
      exact descends_of_proper proper plain
  | agents own => exact named.descends node listed _ _ own
  | @agent key own =>
      obtain ⟨proper, plain⟩ := proper_agentFile setting.toLowercase key
      rw [descends_join_proper (agentsName_ne_nil shown) proper plain]
      exact named.descends node listed _ _ own

theorem resolve_agentsName (shown : nodeId ≠ []) :
    (resolve (agentsName nodeId)).trail.head? = some "agents".toList := by
  rw [agentsName, agentsDirectory, resolve_join_proper
    (join_ne_nil (session_ne_nil shown) _ (by decide)) ⟨by decide, by decide⟩
    ⟨by decide, by decide⟩]
  rfl

theorem WellNamed.different_below (named : WellNamed setting definition)
    (leftListed : left ∈ definition.nodes) (rightListed : right ∈ definition.nodes)
    (apart : left.node.id ≠ right.node.id) (leftShown : left.node.id.toList ≠ [])
    (rightShown : right.node.id.toList ≠ []) (first : Below setting definition left area name)
    (second : Below setting definition right area other) : resolve name ≠ resolve other := by
  have file : ∀ (node : NodeDefinition), node.node.id.toList ≠ [] → ∀ key,
      resolve (join (agentsName node.node.id.toList) (agentFile setting.toLowercase key)) =
        { resolve (agentsName node.node.id.toList) with
          trail := agentFile setting.toLowercase key ::
            (resolve (agentsName node.node.id.toList)).trail } := by
    intro node shown key
    obtain ⟨proper, plain⟩ := proper_agentFile setting.toLowercase key
    exact resolve_join_proper (agentsName_ne_nil shown) proper plain
  have notAgents : ∀ key, agentFile setting.toLowercase key ≠ "agents".toList := by
    intro key same
    have starts : ∃ rest, agentFile setting.toLowercase key = 'a' :: 'r' :: rest := ⟨_, rfl⟩
    obtain ⟨rest, begins⟩ := starts
    rw [begins] at same
    exact absurd (List.cons.inj (List.cons.inj same).2).1 (by decide)
  cases first with
  | artifact typed kind =>
      cases second with
      | artifact otherTyped otherKind =>
          exact artifact_ne leftShown rightShown kind otherKind
            (named.different left leftListed right rightListed apart _ _ _ (.artifact typed)
              (.artifact otherTyped))
  | output identifier clean long =>
      cases second with
      | output otherIdentifier otherClean otherLong =>
          obtain ⟨proper, plain⟩ := proper_output leftShown identifier clean long
          obtain ⟨otherProper, otherPlain⟩ :=
            proper_output rightShown otherIdentifier otherClean otherLong
          rw [resolve_of_proper proper plain, resolve_of_proper otherProper otherPlain]
          intro same
          have names := (List.cons.inj (congrArg Place.trail same)).1
          exact apart (String.toList_inj.mp (nodeId_of_output identifier otherIdentifier names))
  | agents own =>
      cases second with
      | agents others =>
          exact named.different left leftListed right rightListed apart _ _ _ own others
      | @agent key others =>
          rw [file right rightShown key]
          intro same
          have heads := congrArg List.head? (congrArg Place.trail same)
          rw [resolve_agentsName leftShown, List.head?_cons, Option.some.injEq] at heads
          exact notAgents key heads.symm
  | @agent key own =>
      rw [file left leftShown key]
      cases second with
      | agents others =>
          intro same
          have heads := congrArg List.head? (congrArg Place.trail same)
          rw [resolve_agentsName rightShown, List.head?_cons, Option.some.injEq] at heads
          exact notAgents key heads
      | @agent otherKey others =>
          rw [file right rightShown otherKey]
          intro same
          have trails := (List.cons.inj (congrArg Place.trail same)).2
          have absolutes := congrArg Place.absolute same
          have ups := congrArg Place.ups same
          apply named.different left leftListed right rightListed apart _ _ _ own others
          cases place : resolve (agentsName left.node.id.toList)
          cases otherPlace : resolve (agentsName right.node.id.toList)
          rw [place, otherPlace] at trails absolutes ups
          simp only at trails absolutes ups
          rw [trails, absolutes, ups]

end Condition

/-! ## Every layout -/

theorem Layout.directory_ne_nil (layout : Layout) (area : Area) : layout.directory area ≠ [] := by
  intro nothing
  have absolute := layout.absolute area
  rw [nothing] at absolute
  cases absolute

theorem shown_of_accepted (accepted : validateWorkflowDefinition definition = [])
    (listed : node ∈ definition.nodes) : node.node.id.toList ≠ [] := by
  have checked := (validateWorkflowDefinition_eq_nil.mp accepted).2 node listed
  intro nothing
  have blank : node.node.base.id.isBlank = true := by
    have empty : node.node.base.id = "" := String.toList_inj.mp nothing
    rw [empty]
    decide
  rw [validateDagNode, if_pos blank] at checked
  cases checked

theorem WellNamed.separate (accepted : validateWorkflowDefinition definition = [])
    (named : WellNamed setting definition) (layout : Layout) :
    Separate setting definition layout := by
  have inside : ∀ node ∈ definition.nodes, ∀ area path,
      Writes setting definition layout node area path →
        (resolve path).Inside (resolve (layout.directory area)) := by
    intro node listed area path writes
    have shown := shown_of_accepted accepted listed
    obtain ⟨name, rfl, below⟩ := exists_name shown writes
    exact inside_join_of_descends (layout.directory_ne_nil area)
      (named.descends_below listed shown below)
  constructor
  · exact inside
  · intro left leftListed right rightListed apart area path other otherPath first second same
    have leftShown := shown_of_accepted accepted leftListed
    have rightShown := shown_of_accepted accepted rightListed
    have areas : area = other := by
      have leftInside := inside left leftListed area path first
      have rightInside := inside right rightListed other otherPath second
      rw [← same] at rightInside
      rcases inside_of_inside leftInside rightInside with below | below
      · exact layout.apart area other below
      · exact (layout.apart other area below).symm
    rcases areas with rfl
    obtain ⟨name, rfl, below⟩ := exists_name leftShown first
    obtain ⟨otherName, rfl, otherBelow⟩ := exists_name rightShown second
    rw [resolve_join_inj (layout.directory_ne_nil area)
      (named.descends_below leftListed leftShown below)
      (named.descends_below rightListed rightShown otherBelow)] at same
    exact named.different_below leftListed rightListed apart leftShown rightShown below otherBelow
      same

/-- The first letter of an area's directory in a fresh layout. -/
def Area.letter : Area → Char
  | .artifacts => 'a'
  | .log => 'l'
  | .cwd => 'c'

theorem letter_ne_slash (area : Area) : area.letter ≠ '/' := by
  cases area <;> decide

/-- Directories whose names are longer than a given length. -/
def freshLayout (length : Nat) : Layout where
  directory area := freshDirectory area.letter length
  absolute _ := rfl
  apart := by
    intro left right inside
    rw [resolve_freshDirectory (letter_ne_slash left), resolve_freshDirectory
      (letter_ne_slash right)] at inside
    obtain ⟨between, -, -, trail⟩ := inside
    have last := congrArg List.getLast? trail
    rw [List.getLast?_append_of_ne_nil _ (List.cons_ne_nil _ _), List.getLast?_singleton,
      List.getLast?_singleton, Option.some.injEq, freshName, freshName] at last
    have letters : left.letter = right.letter := by
      simp only [List.replicate_succ, List.cons.injEq] at last
      exact last.1
    cases left <;> cases right <;> first | rfl | exact absurd letters (by decide)

theorem writes_of_names (shown : node.node.id.toList ≠ [])
    (named : Names setting definition node area name) (layout : Layout) :
    Writes setting definition layout node area (join (layout.directory area) name) := by
  cases named with
  | artifact typed =>
      apply Writes.artifact typed
      rw [writeNodeArtifact, join_join _ _ shown]
      exact List.mem_cons_self
  | agents sends runs given present =>
      apply Writes.agents sends runs given present
      rw [materializeAgents, agentsDirectory_sessionCwd _ shown]
      exact List.mem_cons_self

theorem wellNamed_of_separate (accepted : validateWorkflowDefinition definition = [])
    (separate : ∀ layout, Separate setting definition layout) : WellNamed setting definition := by
  have descends : ∀ node ∈ definition.nodes, ∀ area name,
      Names setting definition node area name → Descends name := by
    intro node listed area name named
    have writes := writes_of_names (shown_of_accepted accepted listed) named
      (freshLayout name.length)
    have inside := (separate (freshLayout name.length)).inside node listed area _ writes
    exact (inside_freshDirectory_iff (letter_ne_slash area) name (Nat.le_refl _)).mp inside
  constructor
  · exact descends
  · intro left leftListed right rightListed apart area name other first second same
    have writes := writes_of_names (shown_of_accepted accepted leftListed) first (freshLayout 0)
    have others := writes_of_names (shown_of_accepted accepted rightListed) second (freshLayout 0)
    have different := (separate (freshLayout 0)).different left leftListed right rightListed apart
      area _ area _ writes others
    apply different
    rw [resolve_join_inj ((freshLayout 0).directory_ne_nil area)
      (descends left leftListed area name first) (descends right rightListed area other second)]
    exact same

/-- The files of an accepted definition keep to their directories and apart, wherever the
directories are, exactly when the names that its identifiers make lead down and lead to
different places. -/
theorem separate_iff (setting : Setting) (definition : WorkflowDefinition)
    (accepted : validateWorkflowDefinition definition = []) :
    (∀ layout, Separate setting definition layout) ↔ WellNamed setting definition := by
  constructor
  · exact wellNamed_of_separate accepted
  · exact WellNamed.separate accepted

/-! ### Definitions -/

def summarizingNode (nodeId : String) : NodeDefinition where
  node := .prompt ⟨{ id := nodeId, outputType := some "summary" }, "Summarize."⟩

def summarizing (nodeId : String) : WorkflowDefinition where
  base := { name := "summarize", description := "Summarize the changes." }
  nodes := [summarizingNode nodeId]

def claudeSetting : Setting where
  toLowercase := Text.lowercase
  provider _ := "claude"

theorem wellNamed_summary : WellNamed claudeSetting (summarizing "summary") := by
  constructor
  · intro node listed area name named
    rcases List.mem_singleton.mp (show node ∈ [summarizingNode "summary"] from listed) with rfl
    cases named with
    | artifact typed =>
        cases typed
        decide
    | agents sends runs given present => cases given
  · intro left leftListed right rightListed apart
    rcases List.mem_singleton.mp (show left ∈ [summarizingNode "summary"] from leftListed) with rfl
    rcases List.mem_singleton.mp (show right ∈ [summarizingNode "summary"] from rightListed) with
      rfl
    exact absurd rfl apart

theorem separate_summary :
    validateWorkflowDefinition (summarizing "summary") = [] ∧
      ∀ layout, Separate claudeSetting (summarizing "summary") layout :=
  ⟨by decide, (separate_iff claudeSetting (summarizing "summary") (by decide)).mpr
    wellNamed_summary⟩

theorem not_separate_summarizing :
    validateWorkflowDefinition (summarizing "../summary") = [] ∧
      ¬∀ layout, Separate claudeSetting (summarizing "../summary") layout := by
  have accepted : validateWorkflowDefinition (summarizing "../summary") = [] := by decide
  constructor
  · exact accepted
  · intro separate
    have typed : outputType (summarizing "../summary") "../summary" = some "summary" := by decide
    have descends := (wellNamed_of_separate accepted separate).descends
      (summarizingNode "../summary") List.mem_cons_self .artifacts _ (.artifact typed)
    exact absurd descends (by decide)

end NodeFiles

end HarnessAgent
