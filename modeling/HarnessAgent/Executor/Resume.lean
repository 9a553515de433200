import HarnessAgent.Executor.DagWorkflow
import HarnessAgent.Executor.Substitution
import Mathlib.Algebra.Order.BigOperators.Group.List

/-! # References in a resumed run

A resumed run knows of a completed node only the text of its output. References
to the node are compared with those of a run that still has its structured
output and its declared fields.
-/

namespace HarnessAgent

namespace Resume

open DagWorkflow

section Entry

variable {environment : Environment} {prior : PriorNodes} {id text : String}

theorem runTask_of_carried (found : prior.lookup node.id = some text)
    (notForced : node.alwaysRuns = false) (snapshot : NodeOutputs) (session : Option String)
    (isParallel : Bool) :
    runTask environment prior snapshot session isParallel node =
      { output := priorOutput text } := by
  rw [runTask, found, notForced]

theorem lookup_runLayer_of_carried (found : prior.lookup id = some text)
    (notForced : ∀ node ∈ layer, node.id = id → node.alwaysRuns = false)
    (entry : progress.nodeOutputs.lookup id = some (priorOutput text)) :
    (runLayer environment prior progress layer).nodeOutputs.lookup id =
      some (priorOutput text) := by
  apply @lookup_runLayer_rule environment prior (fun entry => entry = some (priorOutput text))
  · exact entry
  · intro node member _ same
    subst same
    rw [layerTask, runTask_of_carried found (notForced node member rfl)]

theorem lookup_of_reaches (unique : (nodes.map DagNode.id).Nodup)
    (built : buildTopologicalLayers nodes = .ok layers)
    (reached : Reaches environment prior 0 layers { nodeOutputs := prepopulate nodes prior }
      index remaining progress) (member : node ∈ nodes) (notForced : node.alwaysRuns = false)
    (found : prior.lookup node.id = some text) :
    progress.nodeOutputs.lookup node.id = some (priorOutput text) := by
  have complete := (TopologicalLayers.greedy_of_build unique built).2
  apply reached.invariant
  · intro layer layerMember progress entry
    apply lookup_runLayer_of_carried found _ entry
    intro other otherMember same
    have otherNode : other ∈ nodes :=
      complete.mem_iff.mp (List.mem_flatten_of_mem layerMember otherMember)
    rw [List.inj_on_of_nodup_map unique otherNode member same]
    exact notForced
  · have notAlways : node.id ∉ alwaysRunIds nodes := by
      rw [mem_alwaysRunIds unique member, notForced]
      exact Bool.false_ne_true
    rw [lookup_prepopulate, if_neg notAlways, found]
    rfl

theorem lookup_visibleOutputs (entry : snapshot.lookup id = some output) (consumer : DagNode) :
    (visibleOutputs prior snapshot consumer).lookup id = some output := by
  rw [visibleOutputs]
  split
  · exact entry
  · split
    · exact entry
    · rename_i absent
      have different : id ≠ consumer.id := by
        rintro rfl
        apply absent
        rw [← AList.lookup_isSome, entry]
        rfl
      rw [AList.lookup_insert_ne different]
      exact entry

end Entry

section References

variable (serde : SerdeJson) (canWrite : String → Bool)

def SameReferences (left right : NodeOutputs) (nodeId : String) : Prop :=
  ∀ field : Option String, (∀ name ∈ field, Reference.IsField name) →
    ConditionEvaluator.resolveOutputRef serde left nodeId field =
      ConditionEvaluator.resolveOutputRef serde right nodeId field ∧
    ∀ escapedForBash outputFileDir,
      Substitution.replaceReference serde canWrite left escapedForBash outputFileDir
          { nodeId, field } =
        Substitution.replaceReference serde canWrite right escapedForBash outputFileDir
          { nodeId, field }

variable {serde canWrite}

theorem sameReferences_of_resolve (leftEntry : left.lookup nodeId = some leftOutput)
    (rightEntry : right.lookup nodeId = some rightOutput)
    (sameText : leftOutput.output = rightOutput.output)
    (sameFields : ∀ field, resolveNodeOutputField serde leftOutput nodeId field =
      resolveNodeOutputField serde rightOutput nodeId field) :
    SameReferences serde canWrite left right nodeId := by
  intro field _
  constructor
  · simp only [ConditionEvaluator.resolveOutputRef, leftEntry, rightEntry, sameText, sameFields]
  · intro escapedForBash outputFileDir
    simp only [Substitution.replaceReference, leftEntry, rightEntry, sameText, sameFields]

theorem resolveOutputRef_error (entry : nodeOutputs.lookup nodeId = some nodeOutput)
    (failed : resolveNodeOutputField serde nodeOutput nodeId name = .error error) :
    ConditionEvaluator.resolveOutputRef serde nodeOutputs nodeId (some name) = .error error := by
  simp only [ConditionEvaluator.resolveOutputRef, entry, failed]
  rfl

theorem exists_field_not_mem (names : List String) :
    ∃ name, Reference.IsField name ∧ name ∉ names := by
  let size := (names.map String.length).sum
  refine ⟨String.ofList (List.replicate (size + 1) 'a'), ?_, ?_⟩
  · have starts : Reference.isStart 'a' = true := by decide
    have isPart : Reference.isFieldPart 'a' = true := by decide
    rw [Reference.IsField, String.toList_ofList, List.replicate_succ, Reference.field,
      Text.identifier, if_pos starts, List.takeWhile_replicate, if_pos isPart,
      List.dropWhile_replicate, if_pos isPart]
  · intro member
    have bound := List.single_le_sum (fun _ _ => Nat.zero_le _) _
      (List.mem_map_of_mem (f := String.length) member)
    simp [size] at bound

variable {text nodeId : String} {session : Option String} {structured : Option Value}
  {declared : Option (List String)}

theorem resolve_of_plain (noFields : declared = none)
    (noObject : structured.bind Value.asObject = none) (field : String) :
    resolveNodeOutputField serde (priorOutput text) nodeId field =
      resolveNodeOutputField serde (.completed text session structured declared) nodeId field := by
  subst noFields
  simp only [resolveNodeOutputField, resolveSettledField, priorOutput, NodeOutput.state, NodeOutput.structuredOutput,
    NodeOutput.declaredFields, NodeOutput.output, noObject, Option.bind_none]

theorem resolve_priorOutput_of_absent {name : String}
    (absent : ∀ members, parseOutputObject serde text = some members →
      Members.get members name = none) :
    ∃ error, resolveNodeOutputField serde (priorOutput text) nodeId name = .error error ∧
      error.reason ≠ .notInSchema := by
  cases parsed : parseOutputObject serde text with
  | none =>
      have other : OutputRefErrorReason.unparseable ≠ .notInSchema := by decide
      refine ⟨{ nodeId, field := name, reason := .unparseable }, ?_, other⟩
      simp [resolveNodeOutputField, resolveSettledField, priorOutput, NodeOutput.state, NodeOutput.structuredOutput,
        NodeOutput.declaredFields, NodeOutput.output, parsed]
  | some members =>
      have other : OutputRefErrorReason.missingKey ≠ .notInSchema := by decide
      refine ⟨{ nodeId, field := name, reason := .missingKey }, ?_, other⟩
      simp [resolveNodeOutputField, resolveSettledField, priorOutput, NodeOutput.state, NodeOutput.structuredOutput,
        NodeOutput.declaredFields, NodeOutput.output, parsed, absent members parsed]

theorem resolve_fresh_of_absent (undeclared : ∀ fields ∈ declared, name ∉ fields)
    (absent : ∀ members, structured.bind Value.asObject = some members →
      Members.get members name = none)
    (rich : ¬(declared = none ∧ structured.bind Value.asObject = none)) :
    ∀ error, resolveNodeOutputField serde (.completed text session structured declared)
      nodeId name = .error error → error.reason = .notInSchema := by
  intro error failed
  cases declared with
  | some fields =>
      have missing : name ∉ fields := undeclared fields rfl
      simp only [resolveNodeOutputField, resolveSettledField, NodeOutput.state, NodeOutput.declaredFields, missing,
        not_false_eq_true, if_true, Except.error.injEq] at failed
      rw [← failed]
  | none =>
      cases object : structured.bind Value.asObject with
      | none => exact absurd ⟨rfl, object⟩ rich
      | some members =>
          simp [resolveNodeOutputField, resolveSettledField, NodeOutput.state, NodeOutput.declaredFields,
            NodeOutput.structuredOutput, object, absent members object] at failed

end References

end Resume

open DagWorkflow Resume

/-- References of later nodes to a node that was completed before the run was
resumed are those of an uninterrupted run exactly when the node has no declared
fields and no object as structured output. -/
theorem resumedReferences_iff (environment : Environment) (canWrite : String → Bool)
    (nodes : List DagNode) (unique : (nodes.map DagNode.id).Nodup) (prior : PriorNodes)
    {layers remaining : List (List DagNode)} {index : Nat} {progress : Progress}
    (built : buildTopologicalLayers nodes = .ok layers)
    (reached : Reaches environment prior 0 layers { nodeOutputs := prepopulate nodes prior }
      index remaining progress)
    {node : DagNode} (member : node ∈ nodes) (notForced : node.alwaysRuns = false)
    {text : String} (found : prior.lookup node.id = some text) (consumer : DagNode)
    {uninterrupted : NodeOutputs} {session : Option String} {structured : Option Value}
    {declared : Option (List String)}
    (completed : uninterrupted.lookup node.id =
      some (.completed text session structured declared)) :
    SameReferences environment.serde canWrite
        (visibleOutputs prior progress.nodeOutputs consumer) uninterrupted node.id ↔
      declared = none ∧ structured.bind Value.asObject = none := by
  have entry : (visibleOutputs prior progress.nodeOutputs consumer).lookup node.id =
      some (priorOutput text) :=
    lookup_visibleOutputs (lookup_of_reaches unique built reached member notForced found) consumer
  constructor
  · intro same
    by_contra rich
    let named := declared.getD [] ++
      ((structured.bind Value.asObject).getD []).keys ++
      ((parseOutputObject environment.serde text).getD []).keys
    rcases exists_field_not_mem named with ⟨name, isField, fresh⟩
    simp only [named, List.mem_append, not_or] at fresh
    rcases fresh with ⟨⟨undeclared, notStructured⟩, notParsed⟩
    have absentInText : ∀ members, parseOutputObject environment.serde text = some members →
        Members.get members name = none := by
      intro members parsed
      rw [parsed] at notParsed
      exact Members.get_eq_none_of_not_mem_keys notParsed
    have absentInObject : ∀ members, structured.bind Value.asObject = some members →
        Members.get members name = none := by
      intro members object
      rw [object] at notStructured
      exact Members.get_eq_none_of_not_mem_keys notStructured
    have undeclaredField : ∀ fields ∈ declared, name ∉ fields := by
      rintro fields rfl
      exact undeclared
    rcases @resolve_priorOutput_of_absent environment.serde text node.id name absentInText with
      ⟨error, failed, otherReason⟩
    have fieldOnly : ∀ other ∈ some name, Reference.IsField other := by
      rintro other ⟨⟩
      exact isField
    have resumed := resolveOutputRef_error entry failed
    rw [(same (some name) fieldOnly).1] at resumed
    rcases ConditionEvaluator.resolveOutputRef_error_iff.mp ⟨error, resumed⟩ with
      ⟨other, nodeOutput, otherError, sameName, sameEntry, otherFailed⟩
    cases sameName
    rw [completed] at sameEntry
    cases sameEntry
    have direct := resolveOutputRef_error completed otherFailed
    rw [resumed] at direct
    cases direct
    exact otherReason
      (resolve_fresh_of_absent undeclaredField absentInObject rich error otherFailed)
  · rintro ⟨noFields, noObject⟩
    exact sameReferences_of_resolve entry completed rfl (resolve_of_plain noFields noObject)

namespace Resume

def verdictSerde : SerdeJson where
  toString := fun _ => ""
  fromStr := fun text =>
    if text = "\x7b\"verdict\":\"ok\"\x7d" then some (.object [("verdict", .string "ok")]) else none

def resumedEnvironment : Environment :=
  { answering (fun _ => false) with serde := verdictSerde }

def consumer : DagNode := guarded "$a.output.note == ''"

/-- The first node was completed, with the document as its text. -/
def verdictPrior : PriorNodes :=
  (∅ : PriorNodes).insert "a" "\x7b\"verdict\":\"ok\"\x7d"

def atConsumer : Progress :=
  runLayer resumedEnvironment verdictPrior
    { nodeOutputs := prepopulate [source, consumer] verdictPrior } [source]

theorem reaches_consumer :
    Reaches resumedEnvironment verdictPrior 0 [[source], [consumer]]
      { nodeOutputs := prepopulate [source, consumer] verdictPrior } 1 [[consumer]] atConsumer :=
  .next rfl .here

def verdictSchema : Value :=
  .object [("type", .string "object"),
    ("properties", .object
      [("verdict", .object [("type", .string "string")]),
        ("note", .object [("type", .string "string")])]),
    ("required", .array [.string "verdict"])]

/-- The outputs of an uninterrupted run whose first node left its structured
output and declared fields. -/
def uninterruptedOutputs (structured : Option Value) (declared : Option (List String)) :
    NodeOutputs :=
  (∅ : NodeOutputs).insert "a" (.completed "\x7b\"verdict\":\"ok\"\x7d" none structured declared)

end Resume

theorem resumedReferences_iff_plain :
    SameReferences verdictSerde (fun _ => true)
      (visibleOutputs verdictPrior atConsumer.nodeOutputs consumer)
      (uninterruptedOutputs none none) "a" :=
  (resumedReferences_iff resumedEnvironment (fun _ => true) [source, consumer] (by decide)
    verdictPrior (by decide) reaches_consumer List.mem_cons_self (by decide)
    (AList.lookup_insert _) consumer (AList.lookup_insert _)).mpr ⟨rfl, rfl⟩

/-- The schema of the node declares an optional field that its output leaves
out: a reference to it is empty, but an error after the run has been resumed. -/
theorem resumedReferences_optionalField :
    Reference.IsField "note" ∧
    ConditionEvaluator.resolveOutputRef verdictSerde
      (uninterruptedOutputs (some (.object [("verdict", .string "ok")]))
        (declaredFieldsFromSchema (some verdictSchema))) "a" (some "note") = .ok "" ∧
    ConditionEvaluator.resolveOutputRef verdictSerde
      (visibleOutputs verdictPrior atConsumer.nodeOutputs consumer) "a" (some "note") =
      .error { nodeId := "a", field := "note", reason := .missingKey } ∧
    ¬SameReferences verdictSerde (fun _ => true)
      (visibleOutputs verdictPrior atConsumer.nodeOutputs consumer)
      (uninterruptedOutputs (some (.object [("verdict", .string "ok")]))
        (declaredFieldsFromSchema (some verdictSchema))) "a" := by
  have isField : Reference.IsField "note" := by
    rw [Reference.IsField]
    decide
  have fresh : ConditionEvaluator.resolveOutputRef verdictSerde
      (uninterruptedOutputs (some (.object [("verdict", .string "ok")]))
        (declaredFieldsFromSchema (some verdictSchema))) "a" (some "note") = .ok "" := by decide
  have resumed : ConditionEvaluator.resolveOutputRef verdictSerde
      (visibleOutputs verdictPrior atConsumer.nodeOutputs consumer) "a" (some "note") =
      .error { nodeId := "a", field := "note", reason := .missingKey } := by decide
  refine ⟨isField, fresh, resumed, fun same => ?_⟩
  have equal := (same (some "note") (by rintro other ⟨⟩; exact isField)).1
  rw [fresh, resumed] at equal
  cases equal

end HarnessAgent
