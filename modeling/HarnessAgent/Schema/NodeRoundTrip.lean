import HarnessAgent.Foundation.Float64Exact
import HarnessAgent.Schema.NodeDeserializer

/-! # Nodes come back as they were read

A node that has been read is written and read again. All its settings come back but for the sign
of a zero delay, and a budget of tokens that does not fit into 32 bits.
-/

namespace HarnessAgent

namespace NodeSchema

/-! ## Delays -/

variable {json : Value} {number : F64}

theorem decode_float (read : Codec.float.decode json = some number) : number.isFinite = true :=
  (Option.filter_eq_some_iff.mp read).2

theorem asF64_integer (number : Int) :
    (integer number).asF64 = some (F64.ofRat (number : Rat)) := by
  rw [integer]
  by_cases nonneg : 0 ≤ number
  · rw [if_pos nonneg, Value.asF64, Number.asF64]
    have same : ((number.toNat : Int) : Rat) = number := by rw [Int.toNat_of_nonneg nonneg]
    rw [← same, Int.cast_natCast]
  · rw [if_neg nonneg, Value.asF64, Number.asF64]
    have same : ((-(number.natAbs : Int) : Int) : Rat) = number := by
      congr 1
      omega
    rw [← same, Int.cast_neg, Int.cast_natCast]

theorem ofRat_of_finite (finite : number.isFinite = true) :
    F64.ofRat number.value = plainZero number := by
  rw [plainZero]
  by_cases zero : number.value = 0
  · rw [if_pos ⟨finite, zero⟩, zero]
    decide +kernel
  · rw [if_neg fun both => zero both.2]
    exact F64.ofRat_value finite fun _ => zero

theorem isFinite_plainZero (finite : number.isFinite = true) :
    (plainZero number).isFinite = true := by
  rw [plainZero]
  split
  · decide
  · exact finite

theorem plainZero_plainZero (number : F64) : plainZero (plainZero number) = plainZero number := by
  by_cases zero : number.isFinite ∧ number.value = 0
  · have plain : plainZero number = F64.zero := if_pos zero
    rw [plain, plainZero]
    split
    · rfl
    · rfl
  · have plain : plainZero number = number := if_neg zero
    rw [plain, plain]

theorem back_jsNumber (finite : number.isFinite = true) :
    jsNumber.Back number (plainZero number) := by
  intro json written
  cases (show json = serializeJsNumber number from written)
  change (serializeJsNumber number).asF64.filter (·.isFinite) = _
  rw [serializeJsNumber]
  by_cases whole : number.isFinite = true ∧ number.value = number.value.floor ∧
      |number.value| < 9007199254740992
  · rw [if_pos whole, asF64_integer, ← whole.2.1, ofRat_of_finite finite]
    exact Option.filter_eq_some_iff.mpr ⟨rfl, isFinite_plainZero finite⟩
  · rw [if_neg whole, if_pos finite]
    have nonzero : ¬(number.isFinite = true ∧ number.value = 0) := by
      intro both
      apply whole
      rw [both.2]
      refine ⟨finite, rfl, ?_⟩
      norm_num
    have plain : plainZero number = number := if_neg nonzero
    rw [plain]
    exact Option.filter_eq_some_iff.mpr ⟨rfl, finite⟩

def plainDelay (config : StepRetryConfig) : StepRetryConfig :=
  { config with delayMs := config.delayMs.map plainZero }

theorem plainDelay_plainDelay (config : StepRetryConfig) :
    plainDelay (plainDelay config) = plainDelay config := by
  rw [plainDelay, plainDelay]
  cases config.delayMs with
  | none => rfl
  | some delay => rw [Option.map_some, Option.map_some, plainZero_plainZero]

theorem back_retryConfig (read : retryConfig.decode json = some config) :
    retryConfig.Back config (plainDelay config) := by
  rcases Codec.gives_of_decode_record read with ⟨attempts, delay, error, -⟩
  apply Codec.back_record (by decide)
  refine ⟨Field.Exact.back attempts, ?_, Field.Exact.back error, trivial⟩
  rcases config with ⟨maxAttempts, delayMs, onError⟩
  cases delayMs with
  | none => exact Field.back_none
  | some number =>
      rcases delay with ⟨part, reads⟩
      rcases Field.ReadFrom.optional reads with ⟨own, -, decoded⟩
      exact Field.back_some (back_jsNumber (decode_float decoded))

/-! ## Budgets -/

theorem visitMap_enabled {budget : Int} (type : members.get "type" = some (.string "enabled"))
    (tokens : members.get "budgetTokens" = some json) (read : json.asI64 = some budget) :
    ThinkingConfig.visitMap members = ThinkingConfig.enabledWith (some budget) := by
  rw [ThinkingConfig.visitMap, type, tokens]
  dsimp only [ThinkingConfig.nextValue, Value.asStr]
  rw [read]
  rfl

theorem enabledWith_of_pos {budget : Int} (positive : 0 < budget) :
    ThinkingConfig.enabledWith (some budget) = .ok (.enabled (some (budget.toNat % 2 ^ 32))) :=
  if_neg (by omega)

variable {budget : Nat}

theorem asI64_of_lt (small : budget < 2 ^ 63) :
    Value.asI64 (.number (.posInt budget)) = some (budget : Int) :=
  if_pos small

/-- An integer above zero is written without a sign. -/
theorem eq_posInt_of_asI64 {number : Int} (read : json.asI64 = some number)
    (positive : 0 < number) : json = .number (.posInt number.toNat) := by
  unfold Value.asI64 at read
  split at read
  · split at read
    · cases read
      rfl
    · cases read
  · cases read
    omega
  · cases read

variable {member : Option Value}

theorem nextValue_eq_ok {α : Type} {read : Value → Option α} {own : α}
    (next : ThinkingConfig.nextValue read member = .ok (some own)) :
    ∃ json, member = some json ∧ read json = some own := by
  rw [ThinkingConfig.nextValue.eq_def] at next
  cases member with
  | none => cases next
  | some json =>
      dsimp only at next
      refine ⟨json, rfl, ?_⟩
      cases shown : read json with
      | none =>
          rw [shown] at next
          cases next
      | some other =>
          rw [shown] at next
          cases next
          rfl

theorem eq_string_of_asStr (read : json.asStr = some text) : json = .string text := by
  unfold Value.asStr at read
  split at read
  · cases read
    rfl
  · cases read

theorem enabledWith_eq_ok
    (chosen : ThinkingConfig.enabledWith tokens = .ok (.enabled (some budget))) :
    ∃ number, tokens = some number ∧ 0 < number ∧ budget = number.toNat % 2 ^ 32 := by
  unfold ThinkingConfig.enabledWith at chosen
  split at chosen
  · cases chosen
  · split_ifs at chosen with notPositive
    cases chosen
    exact ⟨_, rfl, by omega, rfl⟩

theorem visitMap_eq_enabled (read : ThinkingConfig.visitMap members = .ok (.enabled (some budget))) :
    ∃ tokens, ThinkingConfig.nextValue Value.asStr (members.get "type") = .ok (some "enabled") ∧
      ThinkingConfig.nextValue Value.asI64 (members.get "budgetTokens") = .ok tokens ∧
      ThinkingConfig.enabledWith tokens = .ok (.enabled (some budget)) := by
  unfold ThinkingConfig.visitMap at read
  cases typed : ThinkingConfig.nextValue Value.asStr (Members.get members "type") with
  | error error =>
      rw [typed] at read
      cases read
  | ok type =>
      cases counted :
        ThinkingConfig.nextValue Value.asI64 (Members.get members "budgetTokens") with
      | error error =>
          rw [typed, counted] at read
          cases read
      | ok tokens =>
          rw [typed, counted] at read
          cases type with
          | none => cases read
          | some text =>
              change (if text = "adaptive" then _ else _) = _ at read
              split_ifs at read with adaptive enabled disabled
              · cases read
              · subst enabled
                exact ⟨tokens, rfl, rfl, read⟩
              · cases read

theorem deserialize_enabled
    (read : ThinkingConfig.deserialize json = .ok (.enabled (some budget))) :
    ∃ members : Members, ∃ number, json = .object members ∧
      members.get "type" = some (.string "enabled") ∧
      members.get "budgetTokens" = some (.number (.posInt number)) ∧ 0 < number ∧
      budget = number % 2 ^ 32 := by
  unfold ThinkingConfig.deserialize at read
  split at read
  · unfold ThinkingConfig.visitStr at read
    split_ifs at read <;> cases read
  · next members =>
      rcases visitMap_eq_enabled read with ⟨tokens, typed, counted, chosen⟩
      rcases enabledWith_eq_ok chosen with ⟨number, rfl, positive, reduced⟩
      rcases nextValue_eq_ok typed with ⟨type, here, isText⟩
      rcases nextValue_eq_ok counted with ⟨own, there, isNumber⟩
      refine ⟨members, number.toNat, rfl, ?_, ?_, ?_, reduced⟩
      · rw [here, eq_string_of_asStr isText]
      · rw [there, eq_posInt_of_asI64 isNumber positive]
      · omega
  · cases read

def FitsBudget (config : ThinkingConfig) : Prop :=
  ∀ budget, config = .enabled (some budget) → 0 < budget ∧ budget < 2 ^ 32

theorem back_thinkingConfig (fits : FitsBudget config) : thinkingConfig.Back config config := by
  intro json written
  cases (show json = ThinkingConfig.serialize config from written)
  cases config with
  | adaptive => rfl
  | disabled => rfl
  | enabled budgetTokens =>
      cases budgetTokens with
      | none => rfl
      | some budget =>
          rcases fits budget rfl with ⟨positive, small⟩
          change (ThinkingConfig.visitMap _).toOption = _
          rw [visitMap_enabled rfl rfl (asI64_of_lt (by omega)), enabledWith_of_pos (by omega),
            Int.toNat_natCast, Nat.mod_eq_of_lt small]
          rfl

/-! ## Shared settings -/

theorem back_of_read {α : Type} {field : Field α} [exact : field.Exact] {value : α}
    (read : field.read member = some value) : field.Back value value :=
  exact.back (Field.gives_of_read read)

def DagNodeBase.plain (base : DagNodeBase) : DagNodeBase :=
  { base with retry := base.retry.map plainDelay }

theorem back_retry (read : (Field.optional "retry" retryConfig).read member = some retry) :
    (Field.optional "retry" retryConfig).Back retry (retry.map plainDelay) := by
  cases retry with
  | none => exact Field.back_none
  | some config =>
      rcases Field.read_optional_eq_some read with ⟨json, -, -, decoded⟩
      exact Field.back_some (back_retryConfig decoded)

theorem back_thinking (fits : ∀ config, thinking = some config → FitsBudget config) :
    (Field.optional "thinking" thinkingConfig).Back thinking thinking := by
  cases thinking with
  | none => exact Field.back_none
  | some config => exact Field.back_some (back_thinkingConfig (fits config rfl))

theorem distinct_baseFields : baseFields.names.Nodup := by decide

theorem back_base {lookup : String → Option Value} {base : DagNodeBase}
    (reads : baseFields.Reads lookup (baseLayout base))
    (fits : ∀ config, base.thinking = some config → FitsBudget config) :
    baseFields.Back (baseLayout base) (baseLayout base.plain) := by
  rcases reads with ⟨id, dependsOn, when, triggerRule, model, provider, context, outputFormat,
    allowedTools, deniedTools, idleTimeout, retry, hooks, mcp, skills, agents, effort, -,
    maxBudgetUsd, systemPrompt, fallbackModel, betas, sandbox, alwaysRun, persistSession,
    outputType, -⟩
  exact ⟨back_of_read id, back_of_read dependsOn, back_of_read when, back_of_read triggerRule,
    back_of_read model, back_of_read provider, back_of_read context, back_of_read outputFormat,
    back_of_read allowedTools, back_of_read deniedTools, back_of_read idleTimeout,
    back_retry retry, back_of_read hooks, back_of_read mcp, back_of_read skills,
    back_of_read agents, back_of_read effort, back_thinking fits, back_of_read maxBudgetUsd,
    back_of_read systemPrompt, back_of_read fallbackModel, back_of_read betas,
    back_of_read sandbox, back_of_read alwaysRun, back_of_read persistSession,
    back_of_read outputType, trivial⟩

instance : baseFields.Total := by
  unfold baseFields
  infer_instance

/-! ## Fields of the modes -/

instance : loopFields.Exact := by
  unfold loopFields
  have freshContext : (Field.orDefault "fresh_context" .flag false).Exact :=
    @Field.exact_orDefault _ _ _ _ _ (.bool false) rfl
  infer_instance

instance : loopConfig.Exact := Codec.exact_record (by decide)

instance : loopConfig.NotNull := ⟨rfl⟩

instance : onRejectFields.Exact := by
  unfold onRejectFields
  infer_instance

instance : approvalOnReject.Exact := Codec.exact_record (by decide)

instance : approvalOnReject.NotNull := ⟨rfl⟩

instance : approvalFields.Exact := by
  unfold approvalFields
  infer_instance

instance : approvalConfig.Exact := Codec.exact_record (by decide)

instance : approvalConfig.NotNull := ⟨rfl⟩

instance : modeFields.Exact := by
  unfold modeFields
  infer_instance

theorem distinct_modeFields : modeFields.names.Nodup := by decide

theorem disjoint_names : ∀ name ∈ baseFields.names, name ∉ modeFields.names := by decide

namespace DagNode

def mode : DagNode → Mode
  | .command _ => .command
  | .prompt _ => .prompt
  | .bash _ => .bash
  | .script _ => .script
  | .loop _ => .loop
  | .approval _ => .approval
  | .cancel _ => .cancel

def base : DagNode → DagNodeBase
  | .command node => node.base
  | .prompt node => node.base
  | .bash node => node.base
  | .script node => node.base
  | .loop node => node.base
  | .approval node => node.base
  | .cancel node => node.base

def withBase (base : DagNodeBase) : DagNode → DagNode
  | .command node => .command { node with base := base }
  | .prompt node => .prompt { node with base := base }
  | .bash node => .bash { node with base := base }
  | .script node => .script { node with base := base }
  | .loop node => .loop { node with base := base }
  | .approval node => .approval { node with base := base }
  | .cancel node => .cancel { node with base := base }

def plain (node : DagNode) : DagNode :=
  node.withBase node.base.plain

def ownModes : DagNode → ModeFields
  | .command node => { command := some node.command }
  | .prompt node => { prompt := some node.prompt }
  | .bash node => { bash := some node.bash, timeout := node.timeout }
  | .script node =>
      { script := some node.script
        runtime := some node.runtime
        deps := node.deps
        timeout := node.timeout }
  | .loop node => { loopConfig := some node.loopConfig }
  | .approval node => { approval := some node.approval }
  | .cancel node => { cancel := some node.cancel }

end DagNode

theorem writes_ownModes {node : DagNode} (written : node.Writes json) :
    ∃ shared own, baseFields.Writes (baseLayout node.base) shared ∧
      modeFields.Writes (modeLayout node.ownModes) own ∧ json = .object (shared ++ own) := by
  cases node
  all_goals
    rcases written with ⟨shared, own, base, ⟨field, rest, first, others, rfl⟩, rfl⟩
    refine ⟨shared, _, base, ?_, rfl⟩
    -- the fields of other modes are skipped, before and behind those of the node
    repeat first
      | exact others
      | refine ⟨field, rest, first, ?_, rfl⟩
      | apply Fields.writes_skip rfl

theorem deserialize_written {base : DagNodeBase}
    (sharedWritten : baseFields.Writes (baseLayout base) shared)
    (backBase : baseFields.Back (baseLayout base) (baseLayout again))
    (ownWritten : modeFields.Writes (modeLayout modes) own)
    (backModes : modeFields.Back (modeLayout modes) (modeLayout modes)) :
    RawDagNode.deserialize (.object (shared ++ own)) = some ⟨again, modes⟩ := by
  have baseReads : baseFields.Reads (Members.get (shared ++ own)) (baseLayout again) := by
    apply sharedWritten.reads distinct_baseFields backBase
    intro name known
    rw [Members.get_append, ownWritten.get_eq_none (disjoint_names name known), Option.or_none]
  have modeReads : modeFields.Reads (Members.get (shared ++ own)) (modeLayout modes) := by
    apply ownWritten.reads distinct_modeFields backModes
    intro name known
    have foreign : name ∉ baseFields.names := fun inBase => disjoint_names name inBase known
    rw [Members.get_append, sharedWritten.get_eq_none foreign, Option.none_or]
  rw [RawDagNode.deserialize, Fields.decode_eq_some_iff.mpr baseReads,
    Fields.decode_eq_some_iff.mpr modeReads]
  rfl

theorem reads_of_deserialize (read : RawDagNode.deserialize json = some raw) :
    ∃ members : Members, json = .object members ∧
      baseFields.Reads members.get (baseLayout raw.base) ∧
      modeFields.Reads members.get (modeLayout raw.modes) := by
  cases json with
  | object members =>
      rcases Option.bind_eq_some_iff.mp read with ⟨base, baseRead, rest⟩
      rcases Option.bind_eq_some_iff.mp rest with ⟨modes, modesRead, whole⟩
      cases whole
      exact ⟨members, rfl, Fields.decode_eq_some_iff.mp baseRead,
        Fields.decode_eq_some_iff.mp modesRead⟩
  | _ => cases read

/-! ## One mode -/

def ModeFields.only (modes : ModeFields) : Mode → ModeFields
  | .command => { command := some (unwrapTrimmed modes.command) }
  | .prompt => { prompt := some (unwrapTrimmed modes.prompt) }
  | .bash => { bash := some (unwrapTrimmed modes.bash), timeout := modes.timeout }
  | .loop => { loopConfig := modes.loopConfig }
  | .approval => { approval := modes.approval }
  | .cancel => { cancel := some (unwrapTrimmed modes.cancel) }
  | .script =>
      { script := some (unwrapTrimmed modes.script)
        runtime := modes.runtime
        deps := modes.deps
        timeout := modes.timeout }

theorem gives_none {α : Type} {name : String} {codec : Codec α} :
    (Field.optional name codec).Gives none :=
  ⟨none, .inl rfl⟩

theorem gives_text {name : String} (text : Option String) :
    (Field.optional name .text).Gives text := by
  cases text with
  | none => exact gives_none
  | some text => exact ⟨some (.string text), .inr (.inr ⟨_, rfl, rfl⟩)⟩

theorem gives_only (gives : modeFields.Gives (modeLayout modes)) (mode : Mode) :
    modeFields.Gives (modeLayout (modes.only mode)) := by
  rcases gives with ⟨-, -, -, loop, approval, -, -, runtime, deps, timeout, -⟩
  cases mode
  all_goals
    refine ⟨gives_text _, gives_text _, gives_text _, ?_, ?_, gives_text _, gives_text _,
      ?_, ?_, ?_, trivial⟩
  all_goals first | exact gives_none | assumption

end NodeSchema

end HarnessAgent
