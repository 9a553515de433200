import HarnessAgent.Schema.WorkflowDefinition

/-! # Providers of nodes

A node runs on the provider it names, or else on the provider of the workflow, unless its
model is the name of a preset, which brings a provider of its own.
-/

namespace HarnessAgent

inductive TierName
  | small
  | medium
  | large
  deriving DecidableEq, Repr

namespace TierName

def tryFromStr : String → Option TierName
  | "small" => some .small
  | "medium" => some .medium
  | "large" => some .large
  | _ => none

def asStr : TierName → String
  | .small => "small"
  | .medium => "medium"
  | .large => "large"

/-- The tiers that stand in for a tier, in the order in which they are tried. -/
def fallbackChain : TierName → List TierName
  | .large => [.large, .medium, .small]
  | .medium => [.medium, .large, .small]
  | .small => [.small, .medium, .large]

end TierName

structure ModelAliasPreset where
  provider : String
  model : String
  effort : Option String := none
  thinking : Option ThinkingConfig := none
  deriving DecidableEq, Repr

structure ResolvedAiProfile where
  defaultProvider : String
  aliases : AList (fun _ : String => ModelAliasPreset)

inductive ResolvedModelSpec
  | preset (preset : ModelAliasPreset)
  | literal (model : String)
  deriving DecidableEq, Repr

inductive ModelValidationError
  | aliasNameReserved (name : String)
  | aliasNameMissingAtSign (name : String)
  | invalidProvider (name : String)
  | invalidModel (name : String)
  | invalidTierName (name supported : String)
  | tierNotConfigured (tier provider : String)
  | unknownAlias (name defined : String)
  deriving DecidableEq, Repr

def ModelValidationError.message : ModelValidationError → String
  | .aliasNameReserved name =>
      "Alias name '" ++ name ++
        "' is reserved (small/medium/large are tier keywords). Use a different name."
  | .aliasNameMissingAtSign name =>
      "Alias name '" ++ name ++ "' must start with '@' (e.g. '@" ++ name ++
        "'). Reserved tier names (small/medium/large) do not need '@'."
  | .invalidProvider name =>
      "Alias '" ++ name ++ "' has invalid provider — must be a non-empty string."
  | .invalidModel name => "Alias '" ++ name ++ "' has invalid model — must be a non-empty string."
  | .invalidTierName name supported =>
      "Tier name '" ++ name ++ "' is invalid. Supported tiers: " ++ supported ++ "."
  | .tierNotConfigured tier provider =>
      "Tier '" ++ tier ++ "' has no configured preset and no built-in default for provider '" ++
        provider ++ "'. Configure 'tiers.small/medium/large' in .archon/config.yaml."
  | .unknownAlias name defined =>
      "Unknown alias '" ++ name ++ "'. Defined aliases: " ++ defined

def ResolvedAiProfile.definedAliases (profile : ResolvedAiProfile) : String :=
  if profile.aliases.keys = [] then "(none)"
  else ", ".intercalate (profile.aliases.keys.mergeSort fun left right => decide (left ≤ right))

def resolveModelSpec (profile : ResolvedAiProfile) (modelRef : String) :
    Except ModelValidationError ResolvedModelSpec :=
  match TierName.tryFromStr modelRef with
  | some tier =>
      match tier.fallbackChain.findSome? fun fallback =>
        profile.aliases.lookup fallback.asStr with
      | some preset => .ok (.preset preset)
      | none => .error (.tierNotConfigured modelRef profile.defaultProvider)
  | none =>
      if modelRef.toList.head? = some '@' then
        match profile.aliases.lookup modelRef with
        | some preset => .ok (.preset preset)
        | none => .error (.unknownAlias modelRef profile.definedAliases)
      else .ok (.literal modelRef)

/-- What decides on the provider of a node besides the node. A warning whose delivery fails
for good ends the resolution: the one for a node whose provider is not that of its preset,
and the later ones for options that are not supported. -/
structure ProviderSettings where
  workflowProvider : String
  aiProfile : Option ResolvedAiProfile := none
  registered : List String
  conflictWarning : DagNode → Option String := fun _ => none
  optionWarning : DagNode → Option String := fun _ => none

namespace ProviderSettings

variable (settings : ProviderSettings)

def configuredProvider (node : DagNode) : String :=
  node.base.provider.getD settings.workflowProvider

def deliveryError (error : String) : String :=
  "Platform authentication/permission error: " ++ error

def chosenProvider (node : DagNode) : Except String String :=
  match node.base.model, settings.aiProfile with
  | some model, some profile =>
      match resolveModelSpec profile model with
      | .error error =>
          .error ("Node '" ++ node.id ++ "': model spec resolution failed: " ++ error.message)
      | .ok (.literal _) => .ok (settings.configuredProvider node)
      | .ok (.preset preset) =>
          match node.base.provider with
          | none => .ok preset.provider
          | some provider =>
              if provider = preset.provider then .ok preset.provider
              else
                match settings.conflictWarning node with
                | some error => .error (deliveryError error)
                | none => .ok preset.provider
  | _, _ => .ok (settings.configuredProvider node)

def resolveNodeProviderAndModel (node : DagNode) : Except String String :=
  match settings.chosenProvider node with
  | .error error => .error error
  | .ok provider =>
      if provider ∈ settings.registered then
        match settings.optionWarning node with
        | some error => .error (deliveryError error)
        | none => .ok provider
      else
        .error ("Node '" ++ node.id ++ "': unknown provider '" ++ provider ++
          "'. Registered: " ++ ", ".intercalate settings.registered)

end ProviderSettings

theorem exists_lookup_of_resolveModelSpec
    (resolved : resolveModelSpec profile modelRef = .ok (.preset preset)) :
    ∃ name, profile.aliases.lookup name = some preset := by
  unfold resolveModelSpec at resolved
  split at resolved
  · split at resolved
    · rename_i found
      cases resolved
      rcases List.exists_of_findSome?_eq_some found with ⟨fallback, _, present⟩
      exact ⟨_, present⟩
    · cases resolved
  · split at resolved
    · split at resolved
      · rename_i found
        cases resolved
        exact ⟨_, found⟩
      · cases resolved
    · cases resolved

namespace ProviderSettings

variable {settings : ProviderSettings} {node : DagNode} {provider : String}

theorem chosenProvider_eq_ok (chosen : settings.chosenProvider node = .ok provider) :
    provider = settings.configuredProvider node ∨
      ∃ profile name preset, settings.aiProfile = some profile ∧
        profile.aliases.lookup name = some preset ∧ provider = preset.provider := by
  unfold chosenProvider at chosen
  split at chosen
  · rename_i model profile modelGiven profileGiven
    cases resolved : resolveModelSpec profile model with
    | error error =>
        rw [resolved] at chosen
        cases chosen
    | ok spec =>
        rw [resolved] at chosen
        cases spec with
        | literal literal =>
            cases chosen
            exact .inl rfl
        | preset preset =>
            have same : provider = preset.provider := by
              simp only at chosen
              split at chosen
              · cases chosen
                rfl
              · split_ifs at chosen
                · cases chosen
                  rfl
                · split at chosen
                  · cases chosen
                  · cases chosen
                    rfl
            rcases exists_lookup_of_resolveModelSpec resolved with ⟨name, present⟩
            exact .inr ⟨profile, name, preset, profileGiven, present, same⟩
  · cases chosen
    exact .inl rfl

theorem resolveNodeProviderAndModel_eq_ok
    (resolved : settings.resolveNodeProviderAndModel node = .ok provider) :
    provider ∈ settings.registered ∧
      (provider = settings.configuredProvider node ∨
        ∃ profile name preset, settings.aiProfile = some profile ∧
          profile.aliases.lookup name = some preset ∧ provider = preset.provider) := by
  unfold resolveNodeProviderAndModel at resolved
  cases chosen : settings.chosenProvider node with
  | error error =>
      rw [chosen] at resolved
      cases resolved
  | ok other =>
      rw [chosen] at resolved
      simp only at resolved
      split_ifs at resolved with registered
      split at resolved
      · cases resolved
      · cases resolved
        exact ⟨registered, chosenProvider_eq_ok chosen⟩

end ProviderSettings

end HarnessAgent
