import HarnessAgent.Executor.ProviderResolution
import HarnessAgent.Foundation.IterationOrder
import HarnessAgent.Provider.McpConfig
import Mathlib.Data.List.Sort
import Mathlib.Data.String.Basic

/-! # Profiles of models

A profile says what the tiers and the aliases stand for. It is made from defaults that are
bundled with the program and from two configurations, the one of the user and the one of
the repository, layer by layer.
-/

namespace HarnessAgent

open IterationOrder Results

structure RawAliasEntry where
  provider : String
  model : String
  effort : Option String := none
  thinking : Option ThinkingConfig := none
  deriving DecidableEq, Repr

structure BuildAiProfileOptions where
  globalTiers : Option (Pass String RawAliasEntry) := none
  repoTiers : Option (Pass String RawAliasEntry) := none
  globalAliases : Option (Pass String RawAliasEntry) := none
  repoAliases : Option (Pass String RawAliasEntry) := none

/-! ## Defaults -/

structure TierDefaultEntry where
  model : String
  effort : Option String := none

def tierDefaults : List (String × List (String × TierDefaultEntry)) :=
  [("claude", [("small", { model := "haiku" }), ("medium", { model := "sonnet" }),
      ("large", { model := "opus" })]),
    ("codex", [("small", { model := "gpt-5.5", effort := some "minimal" }),
      ("medium", { model := "gpt-5.5", effort := some "medium" }),
      ("large", { model := "gpt-5.5", effort := some "high" })]),
    ("pi", [("small", { model := "anthropic/claude-haiku-4-5" }),
      ("medium", { model := "anthropic/claude-sonnet-4-6" }),
      ("large", { model := "anthropic/claude-opus-4-7" })]),
    ("copilot", [("small", { model := "gpt-5-mini" }), ("medium", { model := "gpt-5" }),
      ("large", { model := "claude-sonnet-4.5" })]),
    ("opencode", [("small", { model := "anthropic/claude-haiku-4-5" }),
      ("medium", { model := "anthropic/claude-sonnet-4-6" }),
      ("large", { model := "anthropic/claude-opus-4-7" })])]

def bundledPreset (defaultProvider : String) (tier : TierName) : Option ModelAliasPreset :=
  (tierDefaults.lookup defaultProvider).bind fun entries =>
    (entries.lookup tier.asStr).map fun entry =>
      { provider := defaultProvider, model := entry.model, effort := entry.effort }

def addBundled (defaultProvider : String) (aliases : Pass String ModelAliasPreset)
    (tier : TierName) : Pass String ModelAliasPreset :=
  match bundledPreset defaultProvider tier with
  | some preset => aliases.insert tier.asStr preset
  | none => aliases

def bundledAliases (defaultProvider : String) : Pass String ModelAliasPreset :=
  [TierName.small, .medium, .large].foldl (addBundled defaultProvider) ∅

/-! ## Checks -/

def assertNotReserved (name : String) : Except ModelValidationError Unit :=
  if (TierName.tryFromStr name).isSome then .error (.aliasNameReserved name) else .ok ()

def assertCustomAliasPrefix (name : String) : Except ModelValidationError Unit :=
  if name.toList.head? = some '@' then .ok () else .error (.aliasNameMissingAtSign name)

def assertValidEntry (name : String) (entry : RawAliasEntry) : Except ModelValidationError Unit :=
  if entry.provider = "" then .error (.invalidProvider name)
  else if entry.model = "" then .error (.invalidModel name)
  else .ok ()

def tierNames : List String :=
  ["small", "medium", "large"]

def assertValidTierName (name : String) : Except ModelValidationError TierName :=
  match TierName.tryFromStr name with
  | some tier => .ok tier
  | none => .error (.invalidTierName name (", ".intercalate tierNames))

def toModelAliasPreset (entry : RawAliasEntry) : ModelAliasPreset where
  provider := entry.provider
  model := entry.model
  effort := entry.effort
  thinking := entry.thinking

def checkTier (name : String) (entry : RawAliasEntry) : Except ModelValidationError Unit := do
  let _ ← assertValidTierName name
  assertValidEntry name entry

def checkAlias (name : String) (entry : RawAliasEntry) : Except ModelValidationError Unit := do
  assertNotReserved name
  assertCustomAliasPrefix name
  assertValidEntry name entry

/-! ## Layers -/

def addEntries (check : String → RawAliasEntry → Except ModelValidationError Unit) :
    List (Sigma fun _ : String => RawAliasEntry) → Pass String ModelAliasPreset →
      Except ModelValidationError (Pass String ModelAliasPreset)
  | [], aliases => .ok aliases
  | entry :: rest, aliases => do
      check entry.1 entry.2
      addEntries check rest (aliases.insert entry.1 (toModelAliasPreset entry.2))

def addLayer (check : String → RawAliasEntry → Except ModelValidationError Unit)
    (layer : Option (Pass String RawAliasEntry)) (aliases : Pass String ModelAliasPreset) :
    Except ModelValidationError (Pass String ModelAliasPreset) :=
  match layer with
  | none => .ok aliases
  | some pass => addEntries check pass.entries aliases

def buildAiProfile (defaultProvider : String) (options : BuildAiProfileOptions) :
    Except ModelValidationError ResolvedAiProfile := do
  let aliases ← addLayer checkTier options.globalTiers (bundledAliases defaultProvider)
  let aliases ← addLayer checkTier options.repoTiers aliases
  let aliases ← addLayer checkAlias options.globalAliases aliases
  let aliases ← addLayer checkAlias options.repoAliases aliases
  return { defaultProvider, aliases }

/-! ## What a layer adds -/

def entryOf (map : Option (Dictionary String RawAliasEntry)) (name : String) :
    Option RawAliasEntry :=
  map.bind fun entries => entries.lookup name

def mapOf (layer : Option (Pass String RawAliasEntry)) :
    Option (Dictionary String RawAliasEntry) :=
  layer.map AList.toFinmap

def writeLayer (layer : Option (Pass String RawAliasEntry))
    (aliases : Pass String ModelAliasPreset) : Pass String ModelAliasPreset :=
  match layer with
  | none => aliases
  | some pass => insertAll toModelAliasPreset pass.entries aliases

theorem lookup_writeLayer (layer : Option (Pass String RawAliasEntry))
    (aliases : Pass String ModelAliasPreset) (name : String) :
    (writeLayer layer aliases).lookup name =
      ((entryOf (mapOf layer) name).map toModelAliasPreset).or (aliases.lookup name) := by
  cases layer with
  | none => rfl
  | some pass =>
      have found : entryOf (mapOf (some pass)) name = pass.lookup name :=
        Finmap.lookup_toFinmap name pass
      rw [found]
      exact lookup_insertAll_pass toModelAliasPreset pass aliases name

section Layers

variable {check : String → RawAliasEntry → Except ModelValidationError Unit}
  {aliases result : Pass String ModelAliasPreset}

theorem addEntries_eq_ok_iff {entries : List (Sigma fun _ : String => RawAliasEntry)} :
    addEntries check entries aliases = .ok result ↔
      (∀ entry ∈ entries, check entry.1 entry.2 = .ok ()) ∧
        result = insertAll toModelAliasPreset entries aliases := by
  induction entries generalizing aliases with
  | nil =>
      constructor
      · intro done
        cases done
        exact ⟨List.forall_mem_nil _, rfl⟩
      · intro done
        rw [done.2]
        rfl
  | cons entry rest induction =>
      rw [List.forall_mem_cons, insertAll_cons, addEntries]
      cases checked : check entry.1 entry.2 with
      | error error =>
          constructor
          · intro done
            cases done
          · intro done
            cases done.1.1
      | ok passed =>
          cases passed
          constructor
          · intro done
            rcases induction.mp done with ⟨others, same⟩
            exact ⟨⟨rfl, others⟩, same⟩
          · intro done
            exact induction.mpr ⟨done.1.2, done.2⟩

theorem addLayer_eq_ok_iff {layer : Option (Pass String RawAliasEntry)} :
    addLayer check layer aliases = .ok result ↔
      (∀ name entry, entryOf (mapOf layer) name = some entry → check name entry = .ok ()) ∧
        result = writeLayer layer aliases := by
  cases layer with
  | none =>
      constructor
      · intro done
        cases done
        exact ⟨fun name entry present => (nomatch present), rfl⟩
      · intro done
        rw [done.2]
        rfl
  | some pass =>
      apply Iff.trans addEntries_eq_ok_iff
      apply and_congr_left
      intro _
      have found : ∀ name, entryOf (mapOf (some pass)) name = pass.lookup name :=
        fun name => Finmap.lookup_toFinmap name pass
      constructor
      · intro valid name entry present
        rw [found] at present
        exact valid ⟨name, entry⟩ (mem_entries_iff.mpr present)
      · intro valid entry member
        apply valid
        rw [found]
        exact mem_entries_iff.mp member

end Layers

/-! ## Configurations -/

structure ProfileMaps where
  globalTiers : Option (Dictionary String RawAliasEntry)
  repoTiers : Option (Dictionary String RawAliasEntry)
  globalAliases : Option (Dictionary String RawAliasEntry)
  repoAliases : Option (Dictionary String RawAliasEntry)

def BuildAiProfileOptions.maps (options : BuildAiProfileOptions) : ProfileMaps where
  globalTiers := mapOf options.globalTiers
  repoTiers := mapOf options.repoTiers
  globalAliases := mapOf options.globalAliases
  repoAliases := mapOf options.repoAliases

structure ValidEntry (entry : RawAliasEntry) : Prop where
  provider : entry.provider ≠ ""
  model : entry.model ≠ ""

structure ValidTier (name : String) (entry : RawAliasEntry) : Prop where
  isTier : ∃ tier : TierName, name = tier.asStr
  entry : ValidEntry entry

structure ValidAlias (name : String) (entry : RawAliasEntry) : Prop where
  notReserved : ∀ tier : TierName, name ≠ tier.asStr
  prefixed : name.toList.head? = some '@'
  entry : ValidEntry entry

namespace ProfileMaps

structure Valid (maps : ProfileMaps) : Prop where
  globalTiers : ∀ name entry, entryOf maps.globalTiers name = some entry → ValidTier name entry
  repoTiers : ∀ name entry, entryOf maps.repoTiers name = some entry → ValidTier name entry
  globalAliases : ∀ name entry,
    entryOf maps.globalAliases name = some entry → ValidAlias name entry
  repoAliases : ∀ name entry, entryOf maps.repoAliases name = some entry → ValidAlias name entry

def tierPreset (maps : ProfileMaps) (defaultProvider : String) (tier : TierName) :
    Option ModelAliasPreset :=
  (((entryOf maps.repoTiers tier.asStr).or (entryOf maps.globalTiers tier.asStr)).map
    toModelAliasPreset).or (bundledPreset defaultProvider tier)

def aliasPreset (maps : ProfileMaps) (name : String) : Option ModelAliasPreset :=
  ((entryOf maps.repoAliases name).or (entryOf maps.globalAliases name)).map toModelAliasPreset

def resolution (maps : ProfileMaps) (defaultProvider modelRef : String) :
    Option ResolvedModelSpec :=
  match TierName.tryFromStr modelRef with
  | some tier => (tier.fallbackChain.findSome? (maps.tierPreset defaultProvider)).map .preset
  | none =>
      if modelRef.toList.head? = some '@' then (maps.aliasPreset modelRef).map .preset
      else some (.literal modelRef)

end ProfileMaps

/-! ## Checks pass for what is valid -/

variable {name : String}

theorem tryFromStr_eq_some_iff {tier : TierName} :
    TierName.tryFromStr name = some tier ↔ name = tier.asStr := by
  constructor
  · intro parsed
    unfold TierName.tryFromStr at parsed
    split at parsed
    · cases parsed
      rfl
    · cases parsed
      rfl
    · cases parsed
      rfl
    · cases parsed
  · intro same
    rw [same]
    cases tier <;> rfl

theorem tryFromStr_eq_none_iff :
    TierName.tryFromStr name = none ↔ ∀ tier : TierName, name ≠ tier.asStr := by
  rw [Option.eq_none_iff_forall_ne_some]
  constructor
  · intro unparsed tier same
    exact unparsed tier (tryFromStr_eq_some_iff.mpr same)
  · intro other tier parsed
    exact other tier (tryFromStr_eq_some_iff.mp parsed)

variable {entry : RawAliasEntry}

theorem assertValidEntry_eq_ok_iff : assertValidEntry name entry = .ok () ↔ ValidEntry entry := by
  unfold assertValidEntry
  split_ifs with noProvider noModel
  · exact ⟨fun passed => (nomatch passed), fun valid => absurd noProvider valid.provider⟩
  · exact ⟨fun passed => (nomatch passed), fun valid => absurd noModel valid.model⟩
  · exact ⟨fun _ => ⟨noProvider, noModel⟩, fun _ => rfl⟩

theorem checkTier_eq_ok_iff : checkTier name entry = .ok () ↔ ValidTier name entry := by
  unfold checkTier assertValidTierName
  cases parsed : TierName.tryFromStr name with
  | none =>
      constructor
      · intro passed
        cases passed
      · intro valid
        rcases valid.isTier with ⟨tier, same⟩
        exact absurd same (tryFromStr_eq_none_iff.mp parsed tier)
  | some tier =>
      apply Iff.trans assertValidEntry_eq_ok_iff
      constructor
      · intro entryValid
        exact ⟨⟨tier, tryFromStr_eq_some_iff.mp parsed⟩, entryValid⟩
      · intro valid
        exact valid.entry

theorem checkAlias_eq_ok_iff : checkAlias name entry = .ok () ↔ ValidAlias name entry := by
  unfold checkAlias assertNotReserved
  cases parsed : TierName.tryFromStr name with
  | some tier =>
      constructor
      · intro passed
        cases passed
      · intro valid
        exact absurd (tryFromStr_eq_some_iff.mp parsed) (valid.notReserved tier)
  | none =>
      have notReserved := tryFromStr_eq_none_iff.mp parsed
      unfold assertCustomAliasPrefix
      by_cases prefixed : name.toList.head? = some '@'
      · rw [if_pos prefixed]
        apply Iff.trans assertValidEntry_eq_ok_iff
        constructor
        · intro entryValid
          exact ⟨notReserved, prefixed, entryValid⟩
        · intro valid
          exact valid.entry
      · rw [if_neg prefixed]
        constructor
        · intro passed
          cases passed
        · intro valid
          exact absurd valid.prefixed prefixed

def layeredAliases (defaultProvider : String) (options : BuildAiProfileOptions) :
    Pass String ModelAliasPreset :=
  writeLayer options.repoAliases (writeLayer options.globalAliases
    (writeLayer options.repoTiers (writeLayer options.globalTiers
      (bundledAliases defaultProvider))))

theorem addLayer_bind_eq_ok_iff {β : Type} {layer : Option (Pass String RawAliasEntry)}
    {next : Pass String ModelAliasPreset → Except ModelValidationError β} {value : β} :
    (addLayer check layer aliases >>= next) = .ok value ↔
      (∀ name entry, entryOf (mapOf layer) name = some entry → check name entry = .ok ()) ∧
        next (writeLayer layer aliases) = .ok value := by
  rw [bind_eq_ok]
  constructor
  · rintro ⟨written, ran, rest⟩
    rcases addLayer_eq_ok_iff.mp ran with ⟨valid, rfl⟩
    exact ⟨valid, rest⟩
  · intro both
    exact ⟨_, addLayer_eq_ok_iff.mpr ⟨both.1, rfl⟩, both.2⟩

variable {profile : ResolvedAiProfile}

theorem buildAiProfile_eq_ok_iff {defaultProvider : String} {options : BuildAiProfileOptions} :
    buildAiProfile defaultProvider options = .ok profile ↔
      options.maps.Valid ∧
        profile = { defaultProvider, aliases := layeredAliases defaultProvider options } := by
  rw [buildAiProfile, addLayer_bind_eq_ok_iff, addLayer_bind_eq_ok_iff, addLayer_bind_eq_ok_iff,
    addLayer_bind_eq_ok_iff]
  simp only [checkTier_eq_ok_iff, checkAlias_eq_ok_iff]
  constructor
  · rintro ⟨globalTiers, repoTiers, globalAliases, repoAliases, built⟩
    cases built
    exact ⟨⟨globalTiers, repoTiers, globalAliases, repoAliases⟩, rfl⟩
  · rintro ⟨valid, rfl⟩
    exact ⟨valid.globalTiers, valid.repoTiers, valid.globalAliases, valid.repoAliases, rfl⟩

/-! ## Lookups in a profile -/

theorem lookup_addBundled (defaultProvider : String) (aliases : Pass String ModelAliasPreset)
    (tier : TierName) (name : String) :
    (addBundled defaultProvider aliases tier).lookup name =
      if name = tier.asStr then
        (bundledPreset defaultProvider tier).or (aliases.lookup name)
      else aliases.lookup name := by
  unfold addBundled
  cases bundledPreset defaultProvider tier with
  | none => rw [Option.none_or, ite_self]
  | some preset =>
      split_ifs with same
      · rw [same, AList.lookup_insert, Option.some_or]
      · exact AList.lookup_insert_ne same

theorem lookup_bundledAliases_tier (defaultProvider : String) (tier : TierName) :
    (bundledAliases defaultProvider).lookup tier.asStr = bundledPreset defaultProvider tier := by
  unfold bundledAliases
  simp only [List.foldl_cons, List.foldl_nil, lookup_addBundled, AList.lookup_empty,
    Option.or_none]
  cases tier <;> simp [TierName.asStr]

theorem lookup_bundledAliases_other (defaultProvider : String)
    (other : ∀ tier : TierName, name ≠ tier.asStr) :
    (bundledAliases defaultProvider).lookup name = none := by
  unfold bundledAliases
  simp only [List.foldl_cons, List.foldl_nil, lookup_addBundled, if_neg (other _)]
  exact AList.lookup_empty name

theorem lookup_layeredAliases (defaultProvider : String) (options : BuildAiProfileOptions)
    (name : String) :
    (layeredAliases defaultProvider options).lookup name =
      (options.maps.aliasPreset name).or
        ((((entryOf options.maps.repoTiers name).or
          (entryOf options.maps.globalTiers name)).map toModelAliasPreset).or
            ((bundledAliases defaultProvider).lookup name)) := by
  unfold layeredAliases ProfileMaps.aliasPreset
  simp only [lookup_writeLayer, Option.map_or, Option.or_assoc]
  rfl

section Valid

variable {defaultProvider : String} {options : BuildAiProfileOptions}

theorem lookup_layeredAliases_tier (valid : options.maps.Valid) (tier : TierName) :
    (layeredAliases defaultProvider options).lookup tier.asStr =
      options.maps.tierPreset defaultProvider tier := by
  have noRepo : entryOf options.maps.repoAliases tier.asStr = none := by
    apply Option.eq_none_iff_forall_ne_some.mpr
    intro entry present
    exact (valid.repoAliases _ entry present).notReserved tier rfl
  have noGlobal : entryOf options.maps.globalAliases tier.asStr = none := by
    apply Option.eq_none_iff_forall_ne_some.mpr
    intro entry present
    exact (valid.globalAliases _ entry present).notReserved tier rfl
  rw [lookup_layeredAliases, lookup_bundledAliases_tier, ProfileMaps.aliasPreset, noRepo,
    noGlobal]
  rfl

theorem lookup_layeredAliases_other (valid : options.maps.Valid)
    (other : ∀ tier : TierName, name ≠ tier.asStr) :
    (layeredAliases defaultProvider options).lookup name = options.maps.aliasPreset name := by
  have noRepo : entryOf options.maps.repoTiers name = none := by
    apply Option.eq_none_iff_forall_ne_some.mpr
    intro entry present
    rcases (valid.repoTiers name entry present).isTier with ⟨tier, same⟩
    exact other tier same
  have noGlobal : entryOf options.maps.globalTiers name = none := by
    apply Option.eq_none_iff_forall_ne_some.mpr
    intro entry present
    rcases (valid.globalTiers name entry present).isTier with ⟨tier, same⟩
    exact other tier same
  rw [lookup_layeredAliases, lookup_bundledAliases_other defaultProvider other, noRepo, noGlobal]
  exact Option.or_none

theorem resolveModelSpec_layeredAliases (valid : options.maps.Valid) (modelRef : String) :
    (resolveModelSpec { defaultProvider, aliases := layeredAliases defaultProvider options }
      modelRef).toOption = options.maps.resolution defaultProvider modelRef := by
  unfold resolveModelSpec ProfileMaps.resolution
  cases parsed : TierName.tryFromStr modelRef with
  | some tier =>
      have walk : (fun fallback : TierName =>
          (layeredAliases defaultProvider options).lookup fallback.asStr) =
            options.maps.tierPreset defaultProvider := by
        funext fallback
        exact lookup_layeredAliases_tier valid fallback
      dsimp only
      rw [walk]
      cases tier.fallbackChain.findSome? (options.maps.tierPreset defaultProvider) with
      | none => rfl
      | some preset => rfl
  | none =>
      dsimp only
      split_ifs with prefixed
      · rw [lookup_layeredAliases_other valid (tryFromStr_eq_none_iff.mp parsed)]
        cases options.maps.aliasPreset modelRef with
        | none => rfl
        | some preset => rfl
      · rfl

end Valid

/-! ## The first fault -/

def entryFault (name : String) (entry : RawAliasEntry) : Option ModelValidationError :=
  if entry.provider = "" then some (.invalidProvider name)
  else if entry.model = "" then some (.invalidModel name)
  else none

def tierFault (name : String) (entry : RawAliasEntry) : Option ModelValidationError :=
  if name ∈ tierNames then entryFault name entry
  else some (.invalidTierName name "small, medium, large")

def aliasFault (name : String) (entry : RawAliasEntry) : Option ModelValidationError :=
  if name ∈ tierNames then some (.aliasNameReserved name)
  else if name.toList.head? = some '@' then entryFault name entry
  else some (.aliasNameMissingAtSign name)

def firstFault (fault : String → RawAliasEntry → Option ModelValidationError)
    (layer : Option (Pass String RawAliasEntry)) : Option ModelValidationError :=
  layer.bind fun pass => pass.entries.findSome? fun entry => fault entry.1 entry.2

def BuildAiProfileOptions.firstFault (options : BuildAiProfileOptions) :
    Option ModelValidationError :=
  (HarnessAgent.firstFault tierFault options.globalTiers).or
    ((HarnessAgent.firstFault tierFault options.repoTiers).or
      ((HarnessAgent.firstFault aliasFault options.globalAliases).or
        (HarnessAgent.firstFault aliasFault options.repoAliases)))

theorem mem_tierNames_iff : name ∈ tierNames ↔ ∃ tier, TierName.tryFromStr name = some tier := by
  have names : name ∈ tierNames ↔ ∃ tier : TierName, name = tier.asStr := by
    constructor
    · intro member
      simp only [tierNames, List.mem_cons, List.not_mem_nil, or_false] at member
      rcases member with rfl | rfl | rfl
      · exact ⟨.small, rfl⟩
      · exact ⟨.medium, rfl⟩
      · exact ⟨.large, rfl⟩
    · rintro ⟨tier, rfl⟩
      cases tier <;> decide
  rw [names]
  exact exists_congr fun tier => tryFromStr_eq_some_iff.symm

def ReportsFault (check : String → RawAliasEntry → Except ModelValidationError Unit)
    (fault : String → RawAliasEntry → Option ModelValidationError) : Prop :=
  ∀ name entry, check name entry =
    match fault name entry with
    | some error => .error error
    | none => .ok ()

theorem reports_entry : ReportsFault assertValidEntry entryFault := by
  intro name entry
  unfold assertValidEntry entryFault
  split_ifs
  · rfl
  · rfl
  · rfl

theorem reports_tier : ReportsFault checkTier tierFault := by
  intro name entry
  unfold checkTier assertValidTierName tierFault
  cases parsed : TierName.tryFromStr name with
  | some tier =>
      rw [if_pos (mem_tierNames_iff.mpr ⟨tier, parsed⟩)]
      exact reports_entry name entry
  | none =>
      have other : name ∉ tierNames := by
        rw [mem_tierNames_iff, parsed]
        exact nofun
      rw [if_neg other]
      rfl

theorem reports_alias : ReportsFault checkAlias aliasFault := by
  intro name entry
  unfold checkAlias assertNotReserved aliasFault
  cases parsed : TierName.tryFromStr name with
  | some tier =>
      rw [if_pos (mem_tierNames_iff.mpr ⟨tier, parsed⟩)]
      rfl
  | none =>
      have other : name ∉ tierNames := by
        rw [mem_tierNames_iff, parsed]
        exact nofun
      rw [if_neg other]
      unfold assertCustomAliasPrefix
      by_cases prefixed : name.toList.head? = some '@'
      · rw [if_pos prefixed, if_pos prefixed]
        exact reports_entry name entry
      · rw [if_neg prefixed, if_neg prefixed]
        rfl

section Faults

variable {check : String → RawAliasEntry → Except ModelValidationError Unit}
  {fault : String → RawAliasEntry → Option ModelValidationError}

theorem addEntries_eq (reports : ReportsFault check fault)
    (entries : List (Sigma fun _ : String => RawAliasEntry))
    (aliases : Pass String ModelAliasPreset) :
    addEntries check entries aliases =
      match entries.findSome? fun entry => fault entry.1 entry.2 with
      | some error => .error error
      | none => .ok (insertAll toModelAliasPreset entries aliases) := by
  induction entries generalizing aliases with
  | nil => rfl
  | cons entry rest induction =>
      rw [addEntries, reports, List.findSome?_cons]
      cases fault entry.1 entry.2 with
      | some error => rfl
      | none => exact induction _

theorem addLayer_bind_eq_error_iff (reports : ReportsFault check fault) {β : Type}
    {layer : Option (Pass String RawAliasEntry)}
    {next : Pass String ModelAliasPreset → Except ModelValidationError β}
    {later : Option ModelValidationError} {error : ModelValidationError}
    (others : next (writeLayer layer aliases) = .error error ↔ later = some error) :
    (addLayer check layer aliases >>= next) = .error error ↔
      (firstFault fault layer).or later = some error := by
  have written : addLayer check layer aliases =
      match firstFault fault layer with
      | some error => .error error
      | none => .ok (writeLayer layer aliases) := by
    cases layer with
    | none => rfl
    | some pass => exact addEntries_eq reports pass.entries aliases
  rw [written]
  cases firstFault fault layer with
  | some first =>
      rw [Option.some_or, Option.some.injEq]
      constructor
      · intro failed
        cases failed
        rfl
      · rintro rfl
        rfl
  | none => exact others

end Faults

theorem buildAiProfile_eq_error_iff {defaultProvider : String} {options : BuildAiProfileOptions}
    {error : ModelValidationError} :
    buildAiProfile defaultProvider options = .error error ↔ options.firstFault = some error := by
  rw [buildAiProfile, BuildAiProfileOptions.firstFault]
  apply addLayer_bind_eq_error_iff reports_tier
  apply addLayer_bind_eq_error_iff reports_tier
  apply addLayer_bind_eq_error_iff reports_alias
  rw [← Option.or_none (o := firstFault aliasFault options.repoAliases)]
  apply addLayer_bind_eq_error_iff reports_alias
  exact iff_of_false nofun nofun

/-! ## The order of a pass -/

theorem definedAliases_congr {other : ResolvedAiProfile}
    (same : profile.aliases.toFinmap = other.aliases.toFinmap) :
    profile.definedAliases = other.definedAliases := by
  have alike : profile.aliases.keys.Perm other.aliases.keys :=
    (AList.toFinmap_eq.mp same).map Sigma.fst
  have sorted : ∀ names : List String,
      (names.mergeSort fun left right => decide (left ≤ right)).Pairwise (· ≤ ·) :=
    fun names => List.pairwise_mergeSort' (· ≤ ·) names
  have list : profile.aliases.keys.mergeSort (fun left right => decide (left ≤ right)) =
      other.aliases.keys.mergeSort fun left right => decide (left ≤ right) :=
    ((List.mergeSort_perm _ _).trans (alike.trans (List.mergeSort_perm _ _).symm)).eq_of_pairwise'
      (sorted _) (sorted _)
  unfold ResolvedAiProfile.definedAliases
  rw [list]
  by_cases none : profile.aliases.keys = []
  · rw [if_pos none, if_pos (List.nil_perm.mp (none ▸ alike))]
  · have some : other.aliases.keys ≠ [] := by
      intro empty
      exact none (List.perm_nil.mp (empty ▸ alike))
    rw [if_neg none, if_neg some]

theorem resolveModelSpec_congr (sameProvider : profile.defaultProvider = other.defaultProvider)
    (same : profile.aliases.toFinmap = other.aliases.toFinmap) (modelRef : String) :
    resolveModelSpec profile modelRef = resolveModelSpec other modelRef := by
  unfold resolveModelSpec
  rw [definedAliases_congr same, sameProvider]
  simp only [lookup_eq_of_toFinmap same]

theorem toFinmap_layeredAliases {defaultProvider : String} (same : options.maps = other.maps) :
    (layeredAliases defaultProvider options).toFinmap =
      (layeredAliases defaultProvider other).toFinmap := by
  apply toFinmap_eq_of_lookup
  intro name
  rw [lookup_layeredAliases, lookup_layeredAliases, same]

/-- A profile is made exactly from maps that are valid, and it resolves a reference to what
the maps say. The order in which the maps are passed over decides at most on the error, which
is the first one that is met. -/
theorem buildAiProfile_resolves (defaultProvider : String) (options : BuildAiProfileOptions) :
    ((∃ profile, buildAiProfile defaultProvider options = .ok profile) ↔ options.maps.Valid) ∧
    (∀ profile, buildAiProfile defaultProvider options = .ok profile → ∀ modelRef,
      (resolveModelSpec profile modelRef).toOption =
        options.maps.resolution defaultProvider modelRef) ∧
    (∀ other : BuildAiProfileOptions, options.maps = other.maps →
      ((∃ profile, buildAiProfile defaultProvider options = .ok profile) ↔
        ∃ profile, buildAiProfile defaultProvider other = .ok profile) ∧
      ∀ profile again, buildAiProfile defaultProvider options = .ok profile →
        buildAiProfile defaultProvider other = .ok again →
          profile.aliases.toFinmap = again.aliases.toFinmap ∧
            ∀ modelRef, resolveModelSpec profile modelRef = resolveModelSpec again modelRef) ∧
    ∀ error, buildAiProfile defaultProvider options = .error error ↔
      options.firstFault = some error := by
  have succeeds : ∀ options : BuildAiProfileOptions,
      (∃ profile, buildAiProfile defaultProvider options = .ok profile) ↔
        options.maps.Valid := by
    intro options
    constructor
    · intro built
      rcases built with ⟨profile, built⟩
      exact (buildAiProfile_eq_ok_iff.mp built).1
    · intro valid
      exact ⟨_, buildAiProfile_eq_ok_iff.mpr ⟨valid, rfl⟩⟩
  refine ⟨succeeds options, ?_, ?_, fun _ => buildAiProfile_eq_error_iff⟩
  · intro profile built modelRef
    rcases buildAiProfile_eq_ok_iff.mp built with ⟨valid, rfl⟩
    exact resolveModelSpec_layeredAliases valid modelRef
  · intro other same
    refine ⟨?_, ?_⟩
    · rw [succeeds options, succeeds other, same]
    · intro profile again built builtAgain
      rcases buildAiProfile_eq_ok_iff.mp built with ⟨-, rfl⟩
      rcases buildAiProfile_eq_ok_iff.mp builtAgain with ⟨-, rfl⟩
      have alike : (layeredAliases defaultProvider options).toFinmap =
          (layeredAliases defaultProvider other).toFinmap := toFinmap_layeredAliases same
      exact ⟨alike, resolveModelSpec_congr rfl alike⟩

def exampleOptions : BuildAiProfileOptions where
  globalTiers := some (AList.singleton "large" { provider := "claude", model := "sonnet" })
  repoTiers := some (AList.singleton "large" { provider := "codex", model := "gpt-5.5" })
  globalAliases := some (AList.singleton "@fast" { provider := "claude", model := "haiku" })
  repoAliases := some (AList.singleton "@fast" { provider := "pi", model := "small" })

theorem buildAiProfile_resolves_example : ∃ profile,
    buildAiProfile "elsewhere" exampleOptions = .ok profile ∧
      (resolveModelSpec profile "small").toOption =
        some (.preset { provider := "codex", model := "gpt-5.5" }) ∧
      (resolveModelSpec profile "@fast").toOption =
        some (.preset { provider := "pi", model := "small" }) :=
  ⟨_, rfl, (buildAiProfile_resolves "elsewhere" exampleOptions).2.1 _ rfl "small",
    (buildAiProfile_resolves "elsewhere" exampleOptions).2.1 _ rfl "@fast"⟩

def faultyTiers : Pass String RawAliasEntry where
  entries := [⟨"big", { provider := "claude", model := "opus" }⟩,
    ⟨"small", { provider := "", model := "haiku" }⟩]
  nodupKeys := by simp [List.NodupKeys, List.keys]

def faultyTiersReversed : Pass String RawAliasEntry where
  entries := [⟨"small", { provider := "", model := "haiku" }⟩,
    ⟨"big", { provider := "claude", model := "opus" }⟩]
  nodupKeys := by simp [List.NodupKeys, List.keys]

/-- Of two faults the one that a pass meets first is reported. -/
theorem buildAiProfile_order_matters : ∃ (options other : BuildAiProfileOptions)
    (error otherError : ModelValidationError), options.maps = other.maps ∧
      buildAiProfile "claude" options = .error error ∧
        buildAiProfile "claude" other = .error otherError ∧ error ≠ otherError := by
  refine ⟨{ globalTiers := some faultyTiers }, { globalTiers := some faultyTiersReversed }, _, _,
    ?_, rfl, rfl, ?_⟩
  · have same : faultyTiers.toFinmap = faultyTiersReversed.toFinmap :=
      AList.toFinmap_eq.mpr (List.Perm.swap _ _ _)
    unfold BuildAiProfileOptions.maps mapOf
    simp only [Option.map_some, same]
  · decide

end HarnessAgent
