import HarnessAgent.Store.WorkflowRuns

/-! # The approval context of a paused run

A pause merges the approval context into the metadata of the run. Optional
fields of the context without a value are left out of the merged document, so
what is read back depends on how the dialect merges nested objects.
-/

namespace HarnessAgent

namespace ApprovalContext

def optionalKeys : List String :=
  ["type", "iteration", "sessionId", "captureResponse", "onRejectPrompt",
    "onRejectMaxAttempts"]

/-- Floats that JSON cannot represent are written as null. -/
def Finite (context : ApprovalContext) : Prop :=
  (∀ value ∈ context.iteration, value.isFinite = true) ∧
    ∀ value ∈ context.onRejectMaxAttempts, value.isFinite = true

variable {α : Type}

theorem get_optionalMember (key other : String) (encode : α → Value) (value : Option α) :
    Members.get (optionalMember other encode value) key =
      if key = other then value.map encode else none := by
  cases value with
  | none => simp [optionalMember]
  | some present => simp [optionalMember, Members.get_cons]

theorem keys_optionalMember_sublist (key : String) (encode : α → Value) (value : Option α) :
    (Members.keys (optionalMember key encode value)).Sublist [key] := by
  cases value <;> simp [optionalMember, Members.keys]

variable (context : ApprovalContext)

theorem keys_toMembers_nodup : context.toMembers.keys.Nodup := by
  have sublist : context.toMembers.keys.Sublist
      (["nodeId", "message"] ++ ["type"] ++ ["iteration"] ++ ["sessionId"] ++
        ["captureResponse"] ++ ["onRejectPrompt"] ++ ["onRejectMaxAttempts"]) := by
    simp only [toMembers, Members.keys, List.map_append]
    exact (((((((List.Sublist.refl _).append (keys_optionalMember_sublist ..)).append
      (keys_optionalMember_sublist ..)).append (keys_optionalMember_sublist ..)).append
      (keys_optionalMember_sublist ..)).append (keys_optionalMember_sublist ..)).append
      (keys_optionalMember_sublist ..))
  exact List.Nodup.sublist sublist (by decide)

theorem get_toMembers (key : String) :
    context.toMembers.get key =
      if key = "nodeId" then some (.string context.nodeId)
      else if key = "message" then some (.string context.message)
      else if key = "type" then context.approvalType.map ApprovalContextType.toValue
      else if key = "iteration" then context.iteration.map Value.ofF64
      else if key = "sessionId" then context.sessionId.map Value.string
      else if key = "captureResponse" then context.captureResponse.map Value.bool
      else if key = "onRejectPrompt" then context.onRejectPrompt.map Value.string
      else if key = "onRejectMaxAttempts" then
        context.onRejectMaxAttempts.map Value.ofF64
      else none := by
  simp only [toMembers, Members.get_append, get_optionalMember, Members.get_cons, Members.get_nil]
  split_ifs <;> simp_all

theorem ofMembers_eq_some {members : Members} {context : ApprovalContext} :
    ofMembers members = some context ↔
      (members.get "nodeId").bind Value.asStr = some context.nodeId ∧
      (members.get "message").bind Value.asStr = some context.message ∧
      optionalField ApprovalContextType.ofValue (members.get "type") =
        some context.approvalType ∧
      optionalField Value.asF64 (members.get "iteration") = some context.iteration ∧
      optionalField Value.asStr (members.get "sessionId") = some context.sessionId ∧
      optionalField Value.asBool (members.get "captureResponse") =
        some context.captureResponse ∧
      optionalField Value.asStr (members.get "onRejectPrompt") =
        some context.onRejectPrompt ∧
      optionalField Value.asF64 (members.get "onRejectMaxAttempts") =
        some context.onRejectMaxAttempts := by
  rcases context with
    ⟨nodeId, message, approvalType, iteration, sessionId, captureResponse, onRejectPrompt,
      onRejectMaxAttempts⟩
  simp only [ofMembers, Option.bind_eq_bind, Option.bind_eq_some_iff, Option.pure_def,
    Option.some.injEq, ApprovalContext.mk.injEq]
  constructor
  · rintro ⟨_, found1, _, found2, _, found3, _, found4, _, found5, _, found6, _, found7, _,
      found8, rfl, rfl, rfl, rfl, rfl, rfl, rfl, rfl⟩
    exact ⟨found1, found2, found3, found4, found5, found6, found7, found8⟩
  · rintro ⟨found1, found2, found3, found4, found5, found6, found7, found8⟩
    exact ⟨_, found1, _, found2, _, found3, _, found4, _, found5, _, found6, _, found7, _,
      found8, rfl, rfl, rfl, rfl, rfl, rfl, rfl, rfl⟩

def AbsentOrNull (member : Option Value) : Prop :=
  member = none ∨ member = some .null

theorem optionalField_eq_none (decode : Value → Option α) (member : Option Value) :
    optionalField decode member = some none ↔ AbsentOrNull member := by
  match member with
  | none => simp [optionalField, AbsentOrNull]
  | some .null => simp [optionalField, AbsentOrNull]
  | some (.bool _) => simp [optionalField, AbsentOrNull]
  | some (.number _) => simp [optionalField, AbsentOrNull]
  | some (.string _) => simp [optionalField, AbsentOrNull]
  | some (.array _) => simp [optionalField, AbsentOrNull]
  | some (.object _) => simp [optionalField, AbsentOrNull]

structure ScalarCodec {α : Type} (encode : α → Value) (decode : Value → Option α) : Prop where
  scalar : ∀ value, (encode value).asObject = none
  decodes : ∀ value, encode value ≠ .null → decode (encode value) = some value

/-- Reading a field back after its document was merged over an old member. -/
theorem optionalField_patched (codec : ScalarCodec encode decode) (old : Option Value)
    (value : Option α) :
    optionalField decode (Members.patched old (value.map encode)) = some value ↔
      (∀ present ∈ value, encode present ≠ .null) ∧ (value = none → AbsentOrNull old) := by
  cases value with
  | none => simp [Members.patched, optionalField_eq_none]
  | some present =>
      have scalar := codec.scalar present
      have decodes := codec.decodes present
      cases encoded : encode present <;>
        simp_all [Members.patched, Value.mergePatch, optionalField, Value.asObject]

/-- Merging over nothing reads as the document itself. -/
theorem optionalField_patched_none (codec : ScalarCodec encode decode) (value : Option α) :
    optionalField decode (Members.patched none (value.map encode)) =
      optionalField decode (value.map encode) := by
  cases value with
  | none => rfl
  | some present =>
      have scalar := codec.scalar present
      cases encoded : encode present <;>
        simp_all [Members.patched, Value.mergePatch, optionalField, Value.asObject]

theorem codec_type : ScalarCodec ApprovalContextType.toValue ApprovalContextType.ofValue where
  scalar value := by cases value <;> rfl
  decodes value _ := by cases value <;> rfl

theorem codec_string : ScalarCodec Value.string Value.asStr where
  scalar _ := rfl
  decodes _ _ := rfl

theorem codec_bool : ScalarCodec Value.bool Value.asBool where
  scalar _ := rfl
  decodes _ _ := rfl

theorem ofF64_eq_null (value : F64) : Value.ofF64 value = .null ↔ value.isFinite = false := by
  unfold Value.ofF64
  cases value.isFinite <;> simp

theorem codec_float : ScalarCodec Value.ofF64 Value.asF64 where
  scalar value := by
    unfold Value.ofF64
    split <;> rfl
  decodes value representable := by
    have finite : value.isFinite = true := by simpa [ofF64_eq_null] using representable
    simp [Value.ofF64, finite, Value.asF64, Number.asF64]

/-- The context is read back from its document merged over old members exactly
when its floats are finite and the old members do not fill in omitted fields. -/
theorem ofMembers_merged {context : ApprovalContext} {old merged : Members}
    (lookups : ∀ key,
      merged.get key = Members.patched (old.get key) (context.toMembers.get key)) :
    ofMembers merged = some context ↔
      context.Finite ∧
        ∀ key ∈ optionalKeys, context.toMembers.get key = none →
          AbsentOrNull (old.get key) := by
  have required : ∀ (member : Option Value) (text : String),
      (Members.patched member (some (.string text))).bind Value.asStr = some text :=
    fun _ _ => rfl
  rw [ofMembers_eq_some]
  simp only [lookups, get_toMembers, if_true, if_false, String.reduceEq, required, true_and,
    optionalField_patched codec_type, optionalField_patched codec_string,
    optionalField_patched codec_bool, optionalField_patched codec_float, optionalKeys,
    List.forall_mem_cons, Option.map_eq_none_iff, Finite, ne_eq, ofF64_eq_null,
    Bool.not_eq_false, reduceCtorEq, not_false_eq_true, implies_true]
  have typeNotNull : ∀ value : ApprovalContextType, value.toValue ≠ .null := by
    intro value
    cases value <;> simp [ApprovalContextType.toValue]
  simp only [typeNotNull, not_false_eq_true, implies_true, true_and, List.not_mem_nil,
    IsEmpty.forall_iff, and_true]
  tauto

theorem ofMembers_toMembers : ofMembers context.toMembers = some context ↔ context.Finite := by
  have merged := @ofMembers_merged context [] (Members.mergePatch [] context.toMembers)
    (Members.get_mergePatch context.keys_toMembers_nodup)
  have nothingOld : ∀ key ∈ optionalKeys, context.toMembers.get key = none →
      AbsentOrNull (Members.get [] key) := fun _ _ _ => .inl rfl
  rw [and_iff_left nothingOld] at merged
  rw [← merged, ofMembers_eq_some, ofMembers_eq_some]
  simp only [Members.get_mergePatch context.keys_toMembers_nodup, get_toMembers, if_true,
    if_false, String.reduceEq, Members.get_nil, optionalField_patched_none codec_type,
    optionalField_patched_none codec_string, optionalField_patched_none codec_bool,
    optionalField_patched_none codec_float]
  rfl

end ApprovalContext

namespace SqlWorkflowStore

variable {dialect : Dialect} {call : DbCall} {table : RunTable} {id : String}
  {context : ApprovalContext} {row : RunRow}

theorem find_pauseWorkflowRun (stored : table.find id = some row)
    (succeeded : (pauseWorkflowRun dialect call table id context).2 = .ok ()) :
    row.status = .running ∧
      (pauseWorkflowRun dialect call table id context).1.find id =
        some ((pauseUpdate dialect id context).set row) := by
  have answered : call.failure = none := by
    cases failure : call.failure with
    | none => rfl
    | some error =>
        simp only [pauseWorkflowRun, query, failure, requireRunning] at succeeded
        split at succeeded <;> cases succeeded
  have positive : 0 < table.affected (pauseUpdate dialect id context) := by
    by_contra none
    have zero : table.affected (pauseUpdate dialect id context) = 0 := by omega
    simp [pauseWorkflowRun, query, answered, zero, requireRunning] at succeeded
  rcases Table.affected_pos.mp positive with ⟨other, member, guard⟩
  have parts : other.id = id ∧ other.status = .running := by
    simpa [pauseUpdate] using guard
  have same : other = row := Option.some.inj
    ((Table.find_eq_some.mpr ⟨member, parts.1⟩).symm.trans stored)
  subst same
  refine ⟨parts.2, ?_⟩
  change (query call table (pauseUpdate dialect id context)).1.find id = _
  simp only [query, answered]
  rw [Table.find_update, stored, Option.map_some, RowUpdate.apply, if_pos guard]

def storedApproval (metadata : Members) : Members :=
  ((metadata.get "approval").bind Value.asObject).getD []

/-- What a pause leaves in the metadata: the other members as they were, and an
approval that reads back as the given context under the stated condition. -/
theorem jsonMerge_approval (dialect : Dialect) (metadata : Members)
    (context : ApprovalContext) :
    ∃ updated : Members,
      dialect.jsonMerge (some (.object metadata))
        (.object [("approval", context.toValue)]) = some (.object updated) ∧
      (∀ key, key ≠ "approval" → updated.get key = metadata.get key) ∧
      ((updated.get "approval").bind ApprovalContext.ofValue = some context ↔
        context.Finite ∧
          (dialect = .sqlite → ∀ key ∈ ApprovalContext.optionalKeys,
            context.toMembers.get key = none →
            ApprovalContext.AbsentOrNull ((storedApproval metadata).get key))) := by
  have single : Members.keys [("approval", context.toValue)] = ["approval"] := rfl
  have nodup : (Members.keys [("approval", context.toValue)]).Nodup := by
    rw [single]
    exact List.nodup_singleton _
  cases dialect with
  | postgres =>
      refine ⟨metadata.concat [("approval", context.toValue)], rfl, fun key different => ?_, ?_⟩
      · rw [Members.get_concat nodup, Members.get_cons, if_neg different]
        simp
      · rw [Members.get_concat nodup, Members.get_cons, if_pos rfl]
        simp only [Option.some_or, Option.bind_some, reduceCtorEq, IsEmpty.forall_iff, and_true]
        exact context.ofMembers_toMembers
  | sqlite =>
      refine ⟨Members.mergePatch metadata [("approval", context.toValue)], rfl,
        fun key different => ?_, ?_⟩
      · rw [Members.get_mergePatch nodup, Members.get_cons, if_neg different]
        rfl
      · rw [Members.get_mergePatch nodup, Members.get_cons, if_pos rfl]
        have target : (((metadata.get "approval").getD .null).asObject).getD [] =
            storedApproval metadata := by
          unfold storedApproval
          cases metadata.get "approval" <;> rfl
        have nested : (Members.patched (metadata.get "approval") (some context.toValue)).bind
            ApprovalContext.ofValue =
              ApprovalContext.ofMembers
                (Members.mergePatch (storedApproval metadata) context.toMembers) := by
          rw [← target]
          rfl
        rw [nested, ApprovalContext.ofMembers_merged
          (Members.get_mergePatch context.keys_toMembers_nodup)]
        simp

end SqlWorkflowStore

open SqlWorkflowStore in
/-- After a successful pause the stored approval reads back as the given context,
with all other metadata unchanged, exactly when the floats of the context are
finite and, on SQLite, no omitted field has a value in the approval before. -/
theorem pauseWorkflowRun_approval_iff (dialect : Dialect) (call : DbCall) (table : RunTable)
    (id : String) (context : ApprovalContext) (row : RunRow) (metadata : Members)
    (stored : table.find id = some row) (document : row.metadata = some (.object metadata))
    (succeeded : (pauseWorkflowRun dialect call table id context).2 = .ok ()) :
    ∃ (paused : RunRow) (updated : Members),
      (pauseWorkflowRun dialect call table id context).1.find id = some paused ∧
      paused.metadata = some (.object updated) ∧
      (((updated.get "approval").bind ApprovalContext.ofValue = some context ∧
          ∀ key, key ≠ "approval" → updated.get key = metadata.get key) ↔
        context.Finite ∧
          (dialect = .sqlite → ∀ key ∈ ApprovalContext.optionalKeys,
            context.toMembers.get key = none →
            ApprovalContext.AbsentOrNull ((storedApproval metadata).get key))) := by
  rcases jsonMerge_approval dialect metadata context with ⟨updated, merged, others, approval⟩
  refine ⟨_, updated, (find_pauseWorkflowRun stored succeeded).2, ?_, ?_⟩
  · change dialect.jsonMerge row.metadata (.object [("approval", context.toValue)]) = _
    rw [document, merged]
  · rw [approval]
    exact and_iff_left others

namespace SqlWorkflowStore

def resumedGate : RunRow where
  id := "r"
  status := .running
  startedAt := 0
  metadata := some (.object
    [("origin", .string "cli"),
      ("approval", .object [("nodeId", .string "gate"), ("message", .string "Proceed?"),
        ("onRejectPrompt", .string "Revise")])])

def resumedGateTable : RunTable where
  rows := [resumedGate]
  distinct := by decide

end SqlWorkflowStore

open SqlWorkflowStore in
theorem pauseWorkflowRun_approval_iff_postgres :
    ∃ (paused : RunRow) (updated : Members),
      (pauseWorkflowRun .postgres { clock := 0 } resumedGateTable "r"
        { nodeId := "next", message := "Continue?" }).1.find "r" = some paused ∧
      paused.metadata = some (.object updated) ∧
      (updated.get "approval").bind ApprovalContext.ofValue =
        some { nodeId := "next", message := "Continue?" } := by
  rcases pauseWorkflowRun_approval_iff .postgres { clock := 0 } resumedGateTable "r"
      { nodeId := "next", message := "Continue?" } resumedGate
      [("origin", .string "cli"),
        ("approval", .object [("nodeId", .string "gate"), ("message", .string "Proceed?"),
          ("onRejectPrompt", .string "Revise")])]
      (by decide) rfl (by decide) with
      ⟨paused, updated, found, document, iff⟩
  refine ⟨paused, updated, found, document, (iff.mpr ⟨?_, nofun⟩).1⟩
  constructor <;> intro value absent <;> cases absent

open SqlWorkflowStore in
/-- On SQLite the prompt of the earlier gate is read back with the new one. -/
theorem pauseWorkflowRun_approval_survives :
    ¬ (∀ (paused : RunRow) (updated : Members),
      (pauseWorkflowRun .sqlite { clock := 0 } resumedGateTable "r"
        { nodeId := "next", message := "Continue?" }).1.find "r" = some paused →
      paused.metadata = some (.object updated) →
      (updated.get "approval").bind ApprovalContext.ofValue =
        some { nodeId := "next", message := "Continue?" }) := by
  intro precise
  have wrong := precise
    { resumedGate with
      status := .paused
      metadata := some (.object
        [("origin", .string "cli"),
          ("approval", .object [("nodeId", .string "next"), ("message", .string "Continue?"),
            ("onRejectPrompt", .string "Revise")])]) }
    _ (by decide) rfl
  exact absurd wrong (by decide)

end HarnessAgent
