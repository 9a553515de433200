import HarnessAgent.Schema.NodeRoundTrip

/-! # What an accepted node has

A value is accepted with one mode in it, which is the variant of the node. The node comes back
from what is written for it, and its integers are those of the value, exactly when the budget of
tokens fits into 32 bits.
-/

namespace HarnessAgent

namespace NodeSchema

/-! ## The mode of a node -/

theorem mem_modesInOrder (mode : Mode) : mode ∈ modesInOrder := by
  cases mode <;> decide

variable {modes : ModeFields}

theorem eq_of_has (one : modes.modeCount = 1) (has : modes.has mode = true)
    (hasOther : modes.has other = true) : mode = other := by
  rw [ModeFields.modeCount, List.countP_eq_length_filter, List.length_eq_one_iff] at one
  rcases one with ⟨only, filtered⟩
  have single : ∀ mode, modes.has mode = true → mode = only := by
    intro mode has
    apply List.mem_singleton.mp
    rw [← filtered]
    exact List.mem_filter.mpr ⟨mem_modesInOrder mode, has⟩
  rw [single mode has, single other hasOther]

variable {node : DagNode}

theorem build_of_ofRaw (accepted : DagNode.ofRaw raw = .ok node) :
    raw.modes.modeCount = 1 ∧ DagNode.build raw = .ok node := by
  unfold DagNode.ofRaw at accepted
  split_ifs at accepted with many nothing
  exact ⟨by omega, accepted⟩

theorem build_eq_ok (built : DagNode.build raw = .ok node) :
    node.base = raw.base ∧ raw.modes.has node.mode = true ∧
      node.ownModes = raw.modes.only node.mode := by
  unfold DagNode.build at built
  dsimp only at built
  split_ifs at built with command prompt bash script cancel
  · cases built
    exact ⟨rfl, command, rfl⟩
  · cases built
    exact ⟨rfl, prompt, rfl⟩
  · cases built
    exact ⟨rfl, bash, rfl⟩
  · split at built
    · cases built
    · next runtime found =>
        cases built
        refine ⟨rfl, script, ?_⟩
        rw [DagNode.mode, ModeFields.only, found, DagNode.ownModes]
  · split at built
    · next config found =>
        cases built
        exact ⟨rfl, congrArg Option.isSome found, by rw [DagNode.mode, ModeFields.only, found,
          DagNode.ownModes]⟩
    · cases built
      exact ⟨rfl, cancel, rfl⟩
  · split at built
    · next config found =>
        cases built
        exact ⟨rfl, congrArg Option.isSome found, by rw [DagNode.mode, ModeFields.only, found,
          DagNode.ownModes]⟩
    · split at built
      · next config found =>
          cases built
          exact ⟨rfl, congrArg Option.isSome found, by rw [DagNode.mode, ModeFields.only, found,
            DagNode.ownModes]⟩
      · cases built

structure Accepts (members : Members) (modes : ModeFields) (node : DagNode) : Prop where
  readsBase : baseFields.Reads members.get (baseLayout node.base)
  readsModes : modeFields.Reads members.get (modeLayout modes)
  has_iff : ∀ mode, modes.has mode = true ↔ mode = node.mode
  ownModes_eq : node.ownModes = modes.only node.mode

theorem accepts_of_deserialize (read : DagNode.deserialize json = .ok node) :
    ∃ members : Members, ∃ modes, json = .object members ∧ Accepts members modes node := by
  unfold DagNode.deserialize at read
  split at read
  · next raw found =>
      rcases reads_of_deserialize found with ⟨members, rfl, base, modes⟩
      rcases build_of_ofRaw read with ⟨one, built⟩
      rcases build_eq_ok built with ⟨sameBase, has, own⟩
      refine ⟨members, raw.modes, rfl, ?_, modes, ?_, own⟩
      · rw [sameBase]
        exact base
      · intro mode
        constructor
        · intro shown
          exact eq_of_has one shown has
        · rintro rfl
          exact has
  · cases read

/-! ## Building the same node again -/

theorem isShown_unwrapTrimmed (shown : isShown field = true) :
    isShown (some (unwrapTrimmed field)) = true := by
  cases field with
  | none => cases shown
  | some text =>
      simp only [isShown, unwrapTrimmed, Option.map_some, Option.getD_some,
        Codec.trimmed_trimmed] at shown ⊢
      exact shown

theorem only_only (modes : ModeFields) (mode : Mode) :
    (modes.only mode).only mode = modes.only mode := by
  cases mode <;> simp [ModeFields.only, unwrapTrimmed, Codec.trimmed_trimmed]

theorem has_only (has : modes.has mode = true) (other : Mode) :
    (modes.only mode).has other = decide (other = mode) := by
  by_cases same : other = mode
  · subst same
    rw [decide_eq_true rfl]
    cases other with
    | loop => exact has
    | approval => exact has
    | _ => exact isShown_unwrapTrimmed has
  · rw [decide_eq_false same]
    cases mode <;> cases other <;> first | exact absurd rfl same | rfl

theorem modeCount_only (has : modes.has mode = true) : (modes.only mode).modeCount = 1 := by
  rw [ModeFields.modeCount, funext (has_only has)]
  cases mode <;> rfl

theorem build_ownModes (trimmed : node.ownModes.only node.mode = node.ownModes)
    (has : ∀ mode, node.ownModes.has mode = decide (mode = node.mode)) :
    DagNode.build ⟨node.base.plain, node.ownModes⟩ = .ok node.plain := by
  unfold DagNode.build
  simp only [has]
  cases node with
  | command node =>
      have text := Option.some.inj (congrArg ModeFields.command trimmed)
      exact congrArg (fun text => Except.ok (DagNode.command ⟨node.base.plain, text⟩)) text
  | prompt node =>
      have text := Option.some.inj (congrArg ModeFields.prompt trimmed)
      exact congrArg (fun text => Except.ok (DagNode.prompt ⟨node.base.plain, text⟩)) text
  | bash node =>
      have text := Option.some.inj (congrArg ModeFields.bash trimmed)
      exact congrArg (fun text =>
        Except.ok (DagNode.bash ⟨node.base.plain, text, node.timeout⟩)) text
  | script node =>
      have text := Option.some.inj (congrArg ModeFields.script trimmed)
      exact congrArg (fun text => Except.ok
        (DagNode.script ⟨node.base.plain, text, node.runtime, node.deps, node.timeout⟩)) text
  | loop node => rfl
  | approval node => rfl
  | cancel node =>
      have text := Option.some.inj (congrArg ModeFields.cancel trimmed)
      exact congrArg (fun text => Except.ok (DagNode.cancel ⟨node.base.plain, text⟩)) text

/-! ## Round trips -/

def Fits (node : DagNode) : Prop :=
  ∀ config, node.base.thinking = some config → FitsBudget config

variable {members : Members}

theorem deserialize_of_writes (accepts : Accepts members modes node) (fits : Fits node)
    (written : node.Writes json) : DagNode.deserialize json = .ok node.plain := by
  rcases accepts with ⟨base, readsModes, has_iff, own⟩
  have has : modes.has node.mode = true := (has_iff _).mpr rfl
  rcases writes_ownModes written with ⟨shared, others, sharedWritten, othersWritten, rfl⟩
  have gives : modeFields.Gives (modeLayout node.ownModes) := by
    rw [own]
    exact gives_only (readsModes.parts 0).gives node.mode
  have again := deserialize_written sharedWritten (back_base base fits) othersWritten
    (Fields.Exact.back gives)
  have trimmed : node.ownModes.only node.mode = node.ownModes := by rw [own, only_only]
  have shown : ∀ mode, node.ownModes.has mode = decide (mode = node.mode) := by
    rw [own]
    exact has_only has
  have one : node.ownModes.modeCount = 1 := by rw [own, modeCount_only has]
  rw [DagNode.deserialize, again]
  dsimp only
  rw [DagNode.ofRaw, one, if_neg (by decide), if_neg (by decide)]
  exact build_ownModes trimmed shown

theorem exists_writesWith {types : List Type} {fields : Fields types} [total : fields.Total]
    (base : DagNodeBase) (record : Record types) :
    ∃ json, DagNode.WritesWith base fields record json := by
  rcases (inferInstance : baseFields.Total).writes (baseLayout base) with ⟨shared, sharedWritten⟩
  rcases total.writes record with ⟨own, written⟩
  exact ⟨_, shared, own, sharedWritten, written, rfl⟩

theorem exists_writes (node : DagNode) : ∃ json, node.Writes json := by
  cases node
  all_goals exact exists_writesWith _ _

/-- The nodes differ at most in the sign of a zero delay. -/
def Same (left right : DagNode) : Prop :=
  left.plain = right.plain

def RoundTrips (node : DagNode) : Prop :=
  (∃ json, node.Writes json) ∧
    ∀ json, node.Writes json → ∃ again, DagNode.deserialize json = .ok again ∧ Same again node

theorem DagNodeBase.plain_plain (base : DagNodeBase) : base.plain.plain = base.plain := by
  have same : (base.retry.map plainDelay).map plainDelay = base.retry.map plainDelay := by
    rw [Option.map_map]
    apply congrArg (Option.map · base.retry)
    funext config
    exact plainDelay_plainDelay config
  exact congrArg (fun retry => { base with retry := retry }) same

theorem plain_plain (node : DagNode) : node.plain.plain = node.plain := by
  have same : node.plain.plain = node.withBase node.base.plain.plain := by
    cases node <;> rfl
  rw [same, node.base.plain_plain]
  rfl

theorem roundTrips (accepts : Accepts members modes node) (fits : Fits node) : RoundTrips node := by
  refine ⟨exists_writes node, ?_⟩
  intro json written
  exact ⟨_, deserialize_of_writes accepts fits written, plain_plain node⟩

/-! ## What the value shows -/

def Mode.field : Mode → String
  | .command => "command"
  | .prompt => "prompt"
  | .bash => "bash"
  | .loop => "loop"
  | .approval => "approval"
  | .cancel => "cancel"
  | .script => "script"

def nonBlank : Value → Bool
  | .null => false
  | .string text => !text.trimmed.isEmpty
  | _ => true

def ModeShown (json : Value) (mode : Mode) : Prop :=
  ∃ value, json.get mode.field = some value ∧ nonBlank value = true

variable {name : String} {member : Option Value}

theorem not_shown {α : Type} {codec : Codec α}
    (read : (Field.optional name codec).read member = some none) :
    ¬∃ value, member = some value ∧ nonBlank value = true := by
  intro shown
  rcases shown with ⟨value, here, shown⟩
  rcases Field.read_optional_eq_none read with rfl | rfl
  · cases here
  · cases here
    cases shown

theorem isShown_iff {text : Option String}
    (read : (Field.optional name .text).read member = some text) :
    isShown text = true ↔ ∃ value, member = some value ∧ nonBlank value = true := by
  cases text with
  | none => exact iff_of_false Bool.false_ne_true (not_shown read)
  | some text =>
      rcases Field.read_optional_eq_some read with ⟨json, rfl, -, decoded⟩
      cases eq_string_of_asStr decoded
      constructor
      · intro shown
        exact ⟨_, rfl, shown⟩
      · intro shown
        rcases shown with ⟨value, here, shown⟩
        cases here
        exact shown

theorem isSome_iff {α : Type} {types : List Type} {fields : Fields types}
    {layout : α ≃ Record types} {config : Option α}
    (read : (Field.optional name (.record fields layout)).read member = some config) :
    config.isSome = true ↔ ∃ value, member = some value ∧ nonBlank value = true := by
  cases config with
  | none => exact iff_of_false Bool.false_ne_true (not_shown read)
  | some config =>
      apply iff_of_true rfl
      rcases Field.read_optional_eq_some read with ⟨json, rfl, notNull, decoded⟩
      refine ⟨json, rfl, ?_⟩
      cases json with
      | null => cases notNull
      | string text => cases decoded
      | _ => rfl

theorem modeShown_iff (accepts : Accepts members modes node) (mode : Mode) :
    ModeShown (.object members) mode ↔ mode = node.mode := by
  rw [← accepts.has_iff]
  rcases accepts.readsModes with
    ⟨command, prompt, bash, loop, approval, cancel, script, -, -, -, -⟩
  apply Iff.symm
  cases mode with
  | command => exact isShown_iff command
  | prompt => exact isShown_iff prompt
  | bash => exact isShown_iff bash
  | loop => exact isSome_iff loop
  | approval => exact isSome_iff approval
  | cancel => exact isShown_iff cancel
  | script => exact isShown_iff script

/-! ## Integers -/

/-- The integers of the node stand in the value: the parts of records under their names or at
their positions, all others under their names. -/
structure IntegersAgree (json : Value) (node : DagNode) : Prop where
  budgetTokens : ∀ budget, node.base.thinking = some (.enabled (some budget)) →
    (json.get "thinking").bind (·.get "budgetTokens") = some (.number (.posInt budget))
  maxAttempts : ∀ config, node.base.retry = some config →
    (json.get "retry").bind (Codec.part · "max_attempts" 0) =
      some (.number (.posInt config.maxAttempts))
  maxTurns : ∀ agents name agent turns, node.base.agents = some agents →
    agents.lookup name = some agent → agent.maxTurns = some turns →
      ((json.get "agents").bind (·.get name)).bind (Codec.part · "maxTurns" 6) =
        some (.number (.posInt turns))
  maxIterations : ∀ loop, node = .loop loop →
    (json.get "loop").bind (Codec.part · "max_iterations" 2) =
      some (.number (.posInt loop.loopConfig.maxIterations))
  rejectAttempts : ∀ approval config attempts, node = .approval approval →
    approval.approval.onReject = some config → config.maxAttempts = some attempts →
      ((json.get "approval").bind (Codec.part · "on_reject" 2)).bind
        (Codec.part · "max_attempts" 1) = some (.number (.posInt attempts))

def ThinkingFits (json : Value) : Prop :=
  ∀ members : Members, ∀ budget, json.get "thinking" = some (.object members) →
    members.get "type" = some (.string "enabled") →
    members.get "budgetTokens" = some (.number (.posInt budget)) → budget < 2 ^ 32

theorem member_of_read {α : Type} {codec : Codec α} {value : α}
    (read : (Field.optional name codec).read (members.get name) = some (some value)) :
    ∃ json, (Value.object members).get name = some json ∧ codec.decode json = some value := by
  rcases Field.read_optional_eq_some read with ⟨json, here, -, decoded⟩
  exact ⟨json, here, decoded⟩

variable {base : DagNodeBase}

theorem reads_thinking (reads : baseFields.Reads members.get (baseLayout base)) :
    (Field.optional "thinking" thinkingConfig).read (members.get "thinking") =
      some base.thinking := by
  rcases reads with ⟨-, -, -, -, -, -, -, -, -, -, -, -, -, -, -, -, -, thinking, -⟩
  exact thinking

theorem deserialize_of_thinking (reads : baseFields.Reads members.get (baseLayout base))
    {config : ThinkingConfig} (chosen : base.thinking = some config) :
    ∃ json, (Value.object members).get "thinking" = some json ∧
      ThinkingConfig.deserialize json = .ok config := by
  have read := reads_thinking reads
  rw [chosen] at read
  rcases member_of_read read with ⟨json, here, decoded⟩
  refine ⟨json, here, ?_⟩
  cases result : ThinkingConfig.deserialize json with
  | error error =>
      change (ThinkingConfig.deserialize json).toOption = _ at decoded
      rw [result] at decoded
      cases decoded
  | ok other =>
      change (ThinkingConfig.deserialize json).toOption = _ at decoded
      rw [result] at decoded
      cases decoded
      rfl

theorem budget_of_fits {members : Members} {base : DagNodeBase}
    (reads : baseFields.Reads members.get (baseLayout base))
    (fits : ThinkingFits (.object members)) {budget : Nat}
    (chosen : base.thinking = some (.enabled (some budget))) :
    (0 < budget ∧ budget < 2 ^ 32) ∧
      (Value.get (.object members) "thinking").bind (·.get "budgetTokens") =
        some (.number (.posInt budget)) := by
  rcases deserialize_of_thinking reads chosen with ⟨json, here, read⟩
  rcases deserialize_enabled read with ⟨own, number, rfl, type, tokens, positive, reduced⟩
  have small := fits own number here type tokens
  rw [Nat.mod_eq_of_lt small] at reduced
  subst reduced
  refine ⟨⟨positive, small⟩, ?_⟩
  rw [here]
  exact tokens

theorem thinking_of_shown {own : Members} (reads : baseFields.Reads members.get (baseLayout base))
    (here : (Value.object members).get "thinking" = some (.object own))
    (type : own.get "type" = some (.string "enabled")) {budget : Nat}
    (tokens : own.get "budgetTokens" = some (.number (.posInt budget))) (positive : 0 < budget) :
    base.thinking = some (.enabled (some (budget % 2 ^ 32))) := by
  cases chosen : base.thinking with
  | none =>
      have read := reads_thinking reads
      rw [chosen] at read
      rcases Field.read_optional_eq_none read with absent | null
      · cases here.symm.trans absent
      · cases here.symm.trans null
  | some config =>
      rcases deserialize_of_thinking reads chosen with ⟨json, there, read⟩
      rw [here] at there
      cases there
      change ThinkingConfig.visitMap own = _ at read
      by_cases small : budget < 2 ^ 63
      · rw [visitMap_enabled type tokens (asI64_of_lt small), enabledWith_of_pos (by omega),
          Int.toNat_natCast] at read
        cases read
        rfl
      · have tooLarge : Value.asI64 (.number (.posInt budget)) = none := if_neg small
        rw [ThinkingConfig.visitMap, type, tokens] at read
        dsimp only [ThinkingConfig.nextValue, Value.asStr] at read
        rw [tooLarge] at read
        cases read

theorem thinkingFits_of_agree (accepts : Accepts members modes node)
    (agree : IntegersAgree (.object members) node) : ThinkingFits (.object members) := by
  intro own budget here type tokens
  by_cases positive : 0 < budget
  · have chosen := thinking_of_shown accepts.readsBase here type tokens positive
    have shown := agree.budgetTokens _ chosen
    rw [here] at shown
    have same := tokens.symm.trans shown
    have reduced : budget = budget % 2 ^ 32 := by
      injection same with same
      injection same with same
      injection same
    omega
  · omega

theorem part_of_required {bound : Nat} {part : Option Value} {value : Nat}
    (reads : (Field.required name (.natural bound)).ReadFrom part value) :
    part = some (.number (.posInt value)) := by
  rcases Field.ReadFrom.required reads with ⟨json, here, decoded⟩
  rw [here, (Codec.decode_natural decoded).1]

theorem part_of_optional {bound : Nat} {part : Option Value} {value : Nat}
    (reads : (Field.optional name (.natural bound)).ReadFrom part (some value)) :
    part = some (.number (.posInt value)) := by
  rcases Field.ReadFrom.optional reads with ⟨json, here, decoded⟩
  rw [here, (Codec.decode_natural decoded).1]

theorem integersAgree (accepts : Accepts members modes node)
    (fits : ThinkingFits (.object members)) : IntegersAgree (.object members) node := by
  rcases accepts with ⟨base, readsModes, -, own⟩
  have thinking := @budget_of_fits _ _ base fits
  rcases base with ⟨-, -, -, -, -, -, -, -, -, -, -, retry, -, -, -, agents, -⟩
  rcases readsModes with ⟨-, -, -, loop, approval, -⟩
  constructor
  · intro budget chosen
    exact (thinking chosen).2
  · intro config chosen
    rw [chosen] at retry
    rcases member_of_read retry with ⟨json, here, decoded⟩
    rcases Codec.parts_of_decode_record decoded with ⟨attempts, -⟩
    rw [here]
    exact part_of_required attempts
  · intro all name agent turns chosen found limited
    rw [chosen] at agents
    rcases member_of_read agents with ⟨json, here, decoded⟩
    rcases Codec.get_of_lookup_dictionary decoded found with ⟨shown, there, read⟩
    rcases Codec.parts_of_decode_record read with ⟨-, -, -, -, -, -, maxTurns, -⟩
    rw [limited] at maxTurns
    rw [here, Option.bind_some, there]
    exact part_of_optional maxTurns
  · intro node chosen
    subst chosen
    rw [← show some node.loopConfig = modes.loopConfig from congrArg ModeFields.loopConfig own]
      at loop
    rcases member_of_read loop with ⟨json, here, decoded⟩
    rcases Codec.parts_of_decode_record decoded with ⟨-, -, iterations, -⟩
    rw [here]
    exact part_of_required iterations
  · intro node config attempts chosen rejects limited
    subst chosen
    rw [← show some node.approval = modes.approval from congrArg ModeFields.approval own]
      at approval
    rcases member_of_read approval with ⟨json, here, decoded⟩
    rcases Codec.parts_of_decode_record decoded with ⟨-, -, onReject, -⟩
    rw [rejects] at onReject
    rcases Field.ReadFrom.optional onReject with ⟨shown, there, read⟩
    rcases Codec.parts_of_decode_record read with ⟨-, maxAttempts, -⟩
    rw [limited] at maxAttempts
    rw [here, Option.bind_some, show Codec.part json "on_reject" 2 = _ from there]
    exact part_of_optional maxAttempts

/-- An accepted value has one mode, which is that of the node. The node comes back, and its
integers are those of the value, exactly when the budget of its thinking fits. -/
theorem deserialize_faithful_iff {json : Value} {node : DagNode}
    (accepted : DagNode.deserialize json = .ok node) :
    (RoundTrips node ∧ (∀ mode, ModeShown json mode ↔ mode = node.mode) ∧
      IntegersAgree json node) ↔ ThinkingFits json := by
  rcases accepts_of_deserialize accepted with ⟨members, modes, rfl, accepts⟩
  constructor
  · intro faithful
    exact thinkingFits_of_agree accepts faithful.2.2
  · intro fits
    refine ⟨roundTrips accepts ?_, modeShown_iff accepts, integersAgree accepts fits⟩
    intro config chosen budget enabled
    subst enabled
    exact (budget_of_fits accepts.readsBase fits chosen).1

def withBudget (budgetTokens : Nat) : Value :=
  .object [("id", .string "plan"), ("prompt", .string " go "),
    ("thinking", .object [("type", .string "enabled"),
      ("budgetTokens", .number (.posInt budgetTokens))])]

theorem exists_of_isOk {json : Value} (ok : (DagNode.deserialize json).isOk = true) :
    ∃ node, DagNode.deserialize json = .ok node := by
  cases result : DagNode.deserialize json with
  | ok node => exact ⟨node, rfl⟩
  | error error =>
      rw [result] at ok
      cases ok

theorem deserialize_faithful_smallBudget :
    ∃ node, DagNode.deserialize (withBudget 1024) = .ok node ∧
      RoundTrips node ∧ (∀ mode, ModeShown (withBudget 1024) mode ↔ mode = node.mode) ∧
      IntegersAgree (withBudget 1024) node := by
  rcases @exists_of_isOk (withBudget 1024) (by decide +kernel) with ⟨node, accepted⟩
  refine ⟨node, accepted, (deserialize_faithful_iff accepted).mpr ?_⟩
  intro members budget here type tokens
  cases here
  cases tokens
  decide

theorem not_faithful_wideBudget :
    ∃ node, DagNode.deserialize (withBudget 4294967296) = .ok node ∧
      node.base.thinking = some (.enabled (some 0)) ∧
      ¬(RoundTrips node ∧ (∀ mode, ModeShown (withBudget 4294967296) mode ↔ mode = node.mode) ∧
        IntegersAgree (withBudget 4294967296) node) := by
  rcases @exists_of_isOk (withBudget 4294967296) (by decide +kernel) with ⟨node, accepted⟩
  rcases accepts_of_deserialize accepted with ⟨members, modes, shape, accepts⟩
  cases shape
  refine ⟨node, accepted, thinking_of_shown accepts.readsBase rfl rfl rfl (by decide), ?_⟩
  intro faithful
  have fits := thinkingFits_of_agree accepts faithful.2.2 _ 4294967296 rfl rfl rfl
  omega

end NodeSchema

end HarnessAgent
