import HarnessAgent.Executor.DagWorkflow
import HarnessAgent.Executor.NodeFiles
import HarnessAgent.Schema.NodeArtifact

/-! # Artifacts of nodes

When the results of a layer are collected, an artifact is written for every node that
declares a type of its output: a file for the text and one for the metadata, which the
schema of artifacts is meant to read.
-/

namespace HarnessAgent

open LexicalPath LexicalPath.Place DagWorkflow

namespace NodeArtifacts

/-! ## Writing -/

structure FileAnswers where
  artifactsDir : Bool
  nodeDir : Bool
  text : Bool
  metadata : Bool

def FileAnswers.accepts (answers : FileAnswers) : Bool :=
  answers.artifactsDir && answers.nodeDir && answers.text

structure ArtifactFiles where
  textPath : Path
  text : String
  metadataPath : Path
  metadata : Option Value

def metadata (nodeId outputType runId producedAt : String) : Value :=
  .object [("nodeId", .string nodeId), ("outputType", .string outputType),
    ("runId", .string runId), ("producedAt", .string producedAt)]

/-- The files that are written; a failure before the text is written leaves none. -/
def writeNodeArtifact (answers : FileAnswers) (artifactsDir : Path)
    (nodeId outputType runId producedAt : String) (_sessionId : Option String)
    (outputText : String) : Option ArtifactFiles :=
  if !answers.artifactsDir then none
  else if !answers.nodeDir then none
  else
    let nodeDir := join artifactsDir nodeId.toList
    let mdPath := join nodeDir (outputType ++ ".md").toList
    if !answers.text then none
    else
      let metaPath := join nodeDir (outputType ++ ".meta.json").toList
      some
        { textPath := mdPath
          text := outputText
          metadataPath := metaPath
          metadata :=
            if answers.metadata then some (metadata nodeId outputType runId producedAt)
            else none }

/-! ## Collecting a layer -/

/-- What the artifacts of a run depend on: the clock's text and the file system, at the time
when each node is collected. -/
structure ArtifactSetting where
  artifactsDir : Path
  runId : String
  now : DagNode → String
  answers : DagNode → FileAnswers

def declaredOutputType (nodes : List DagNode) (id : String) : Option String :=
  (nodes.find? fun node => node.id = id).bind fun node => node.base.outputType

structure CollectedNode where
  id : String
  output : NodeOutput
  artifact : Option ArtifactFiles

structure CollectedLayer where
  progress : Progress
  collected : List CollectedNode := []

section Collect

variable (environment : Environment) (prior : PriorNodes) (setting : ArtifactSetting)
  (nodes : List DagNode)

def layerTask (progress : Progress) (layer : List DagNode) : DagNode → NodeResult :=
  let isParallel : Bool := decide (1 < layer.length)
  let resumeSession := if isParallel then none else progress.lastSequentialSessionId
  runTask environment prior progress.nodeOutputs resumeSession isParallel

def artifactOf (node : DagNode) : Option ArtifactFiles :=
  (declaredOutputType nodes node.id).bind fun outputType =>
    writeNodeArtifact (setting.answers node) setting.artifactsDir node.id outputType setting.runId
      (setting.now node) none ""

/-- Results are collected as before, and artifacts are written on the way. -/
def collectLayer (progress : Progress) (layer : List DagNode) : CollectedLayer :=
  let isParallel : Bool := decide (1 < layer.length)
  let resumeSession := if isParallel then none else progress.lastSequentialSessionId
  let task := layerTask environment prior progress layer
  layer.foldl
    (fun state node =>
      if environment.lost node then state
      else
        { progress := collect isParallel state.progress node.id (task node)
          collected := state.collected ++
            [⟨node.id, (task node).output, artifactOf setting nodes node⟩] })
    { progress := { progress with lastSequentialSessionId := resumeSession } }

end Collect

theorem foldl_collect (environment : Environment) (isParallel : Bool) (task : DagNode → NodeResult)
    (artifact : DagNode → Option ArtifactFiles) (layer : List DagNode) (state : CollectedLayer) :
    layer.foldl
        (fun state node =>
          if environment.lost node then state
          else
            { progress := collect isParallel state.progress node.id (task node)
              collected := state.collected ++ [⟨node.id, (task node).output, artifact node⟩] })
        state =
      { progress := layer.foldl
          (fun collected node =>
            if environment.lost node then collected
            else collect isParallel collected node.id (task node)) state.progress
        collected := state.collected ++ (layer.filter fun node => !environment.lost node).map
          fun node => ⟨node.id, (task node).output, artifact node⟩ } := by
  induction layer generalizing state with
  | nil => rw [List.filter_nil, List.map_nil, List.append_nil]; rfl
  | cons node layer induction =>
      rw [List.foldl_cons, List.foldl_cons, induction, List.filter_cons]
      cases lost : environment.lost node with
      | true => rfl
      | false =>
          rw [if_neg Bool.false_ne_true, if_neg Bool.false_ne_true, Bool.not_false, if_pos rfl,
            List.map_cons, List.append_assoc]
          rfl

theorem collected_collectLayer (environment : Environment) (prior : PriorNodes)
    (setting : ArtifactSetting) (nodes : List DagNode) (progress : Progress)
    (layer : List DagNode) :
    (collectLayer environment prior setting nodes progress layer).collected =
      (layer.filter fun node => !environment.lost node).map fun node =>
        ⟨node.id, (layerTask environment prior progress layer node).output,
          artifactOf setting nodes node⟩ := by
  rw [collectLayer, foldl_collect]
  rfl

theorem writeNodeArtifact_eq (answers : FileAnswers) (artifactsDir : Path)
    (nodeId outputType runId producedAt : String) (sessionId : Option String)
    (outputText : String) :
    writeNodeArtifact answers artifactsDir nodeId outputType runId producedAt sessionId outputText =
      if answers.accepts then
        some
          { textPath := join (join artifactsDir nodeId.toList) (outputType ++ ".md").toList
            text := outputText
            metadataPath := join (join artifactsDir nodeId.toList)
              (outputType ++ ".meta.json").toList
            metadata :=
              if answers.metadata then some (metadata nodeId outputType runId producedAt)
              else none }
      else none := by
  rw [writeNodeArtifact, FileAnswers.accepts]
  cases answers.artifactsDir with
  | false => rfl
  | true =>
      cases answers.nodeDir with
      | false => rfl
      | true =>
          cases answers.text with
          | false => rfl
          | true => rfl

theorem parse_metadata (nodeId outputType runId producedAt : String) :
    NodeArtifact.parse (metadata nodeId outputType runId producedAt) =
      .error [.emptyOutputType] := by
  have unread : NodeArtifact.fromValue (metadata nodeId outputType runId producedAt) = none := by
    rfl
  rw [NodeArtifact.parse, unread]

/-! ## What an artifact is for -/

structure Describes (setting : ArtifactSetting) (outputType : String) (collected : CollectedNode)
    (files : ArtifactFiles) : Prop where
  text : files.text = collected.output.output
  metadata : ∃ value record, files.metadata = some value ∧ NodeArtifact.parse value = .ok record ∧
    record.nodeId = collected.id ∧ record.outputType = outputType ∧
    record.runId = setting.runId ∧ record.size = files.text.utf8ByteSize ∧
    resolve (join setting.artifactsDir record.path.toList) = resolve files.textPath

def Kept (setting : ArtifactSetting) (nodes : List DagNode) (collected : CollectedNode) : Prop :=
  ∀ outputType, declaredOutputType nodes collected.id = some outputType →
    (collected.artifact.isSome = true ↔ collected.output.state = .completed) ∧
      ∀ files, collected.artifact = some files → Describes setting outputType collected files

theorem artifactOf_eq_none_iff (setting : ArtifactSetting) {nodes : List DagNode}
    (declared : declaredOutputType nodes node.id = some outputType) :
    artifactOf setting nodes node = none ↔ (setting.answers node).accepts = false := by
  rw [artifactOf, declared, Option.bind_some, writeNodeArtifact_eq]
  cases (setting.answers node).accepts with
  | true => exact iff_of_false (fun wrong => by cases wrong) (fun wrong => by cases wrong)
  | false => exact iff_of_true rfl rfl

theorem not_describes {setting : ArtifactSetting} {nodes : List DagNode} {outputType : String}
    {collected : CollectedNode} (written : artifactOf setting nodes node = some files) :
    ¬Describes setting outputType collected files := by
  intro describes
  rcases describes.metadata with ⟨value, record, stored, parsed, -⟩
  rcases Option.bind_eq_some_iff.mp written with ⟨type, -, wrote⟩
  rw [writeNodeArtifact_eq] at wrote
  split at wrote
  · cases wrote
    dsimp only at stored
    split at stored
    · cases stored
      rw [parse_metadata] at parsed
      cases parsed
    · cases stored
  · cases wrote

theorem kept_iff (setting : ArtifactSetting) (nodes : List DagNode) (node : DagNode)
    (output : NodeOutput) :
    Kept setting nodes ⟨node.id, output, artifactOf setting nodes node⟩ ↔
      ((declaredOutputType nodes node.id).isSome = true →
        output.state ≠ .completed ∧ (setting.answers node).accepts = false) := by
  constructor
  · intro kept declares
    rcases Option.isSome_iff_exists.mp declares with ⟨outputType, declared⟩
    rcases kept outputType declared with ⟨existing, right⟩
    have nothing : artifactOf setting nodes node = none := by
      cases written : artifactOf setting nodes node with
      | none => rfl
      | some files => exact absurd (right files written) (not_describes written)
    refine ⟨?_, (artifactOf_eq_none_iff setting declared).mp nothing⟩
    intro completed
    have present := existing.mpr completed
    dsimp only at present
    rw [nothing] at present
    cases present
  · intro condition outputType declared
    rcases condition (Option.isSome_iff_exists.mpr ⟨outputType, declared⟩) with ⟨ended, refused⟩
    have nothing := (artifactOf_eq_none_iff setting declared).mpr refused
    dsimp only
    rw [nothing]
    constructor
    · exact iff_of_false Bool.false_ne_true ended
    · intro files written
      cases written

/-- After a layer the artifacts are right exactly if there are none: no node of it that
declares an output type completed, and no text of one could be written. -/
theorem kept_collectLayer_iff (environment : Environment) (prior : PriorNodes)
    (setting : ArtifactSetting) (nodes : List DagNode) (progress : Progress)
    (layer : List DagNode) :
    (∀ collected ∈ (collectLayer environment prior setting nodes progress layer).collected,
      Kept setting nodes collected) ↔
      ∀ node ∈ layer, environment.lost node = false →
        (declaredOutputType nodes node.id).isSome = true →
          (layerTask environment prior progress layer node).output.state ≠ .completed ∧
            (setting.answers node).accepts = false := by
  rw [collected_collectLayer, List.forall_mem_map]
  simp only [List.mem_filter, Bool.not_eq_true', and_imp, kept_iff]

def planned : DagNode := .prompt ⟨{ id := "plan", outputType := some "plan" }, "Plan."⟩

def reviewed : DagNode := .prompt ⟨{ id := "review", outputType := some "report" }, "Review."⟩

def failingReview : Environment :=
  { answering fun _ => false with
    dispatch := fun node _ =>
      { output := if node.id = "review" then .failed "" none "no access" none none
          else .completed "Step one" none none none } }

def writableSetting : ArtifactSetting where
  artifactsDir := "/artifacts".toList
  runId := "run"
  now _ := "2024-01-01T12:00:00+00:00"
  answers _ := ⟨true, true, true, true⟩

def reviewLayer : CollectedLayer :=
  collectLayer failingReview ∅ writableSetting [planned, reviewed] { nodeOutputs := ∅ }
    [planned, reviewed]

/-- The file of the plan is empty and its metadata cannot be read, and there is a file of the
review that failed. -/
theorem not_kept_reviewLayer :
    ∃ plan review, reviewLayer.collected = [plan, review] ∧
      plan.output = .completed "Step one" none none none ∧
      plan.artifact.map ArtifactFiles.text = some "" ∧ review.output.state = .failed ∧
      review.artifact.isSome = true ∧ ¬Kept writableSetting [planned, reviewed] plan ∧
      ¬Kept writableSetting [planned, reviewed] review := by
  refine ⟨_, _, rfl, rfl, rfl, rfl, rfl, ?_, ?_⟩
  · intro kept
    have text := ((kept "plan" rfl).2 _ rfl).text
    exact absurd text (by decide)
  · intro kept
    have completed := (kept "report" rfl).1.mp rfl
    cases completed

end NodeArtifacts

end HarnessAgent
