import HarnessAgent.Foundation.IterationOrder
import HarnessAgent.Provider.OpenCodeProvider

/-! # The agent of an OpenCode node

A node can define agents. The prompt of the node is sent to one of them, the first in a
pass over the map that the configuration keeps them in.
-/

namespace HarnessAgent

namespace OpenCode

open IterationOrder

structure AgentConfig where
  description : String
  prompt : String
  model : Option String := none
  tools : Option (List String) := none
  disallowedTools : Option (List String) := none
  skills : Option (List String) := none
  maxTurns : Option Nat := none
  deriving DecidableEq

structure NamedAgentConfig where
  key : String
  opencodeAgentName : String
  config : AgentConfig
  deriving DecidableEq

/-- The loop over the lowercase characters: what is written, and whether something was left
out since. -/
def kebabLoop : List Char → (written : List Char) → (inSep : Bool) → List Char
  | [], written, _ => written
  | character :: rest, written, inSep =>
      if Text.isAsciiDigit character || Text.isAsciiLetter character then
        kebabLoop rest
          ((if inSep && !written.isEmpty then written ++ ['-'] else written) ++ [character]) false
      else kebabLoop rest written true

def toKebabCase (name : String) : String :=
  String.ofList (kebabLoop (Text.lowercase name.toList) [] false)

def named (key : String) (config : AgentConfig) : NamedAgentConfig where
  key := key
  opencodeAgentName := "archon-" ++ toKebabCase key
  config := config

def listNamedAgents : Option (Pass String AgentConfig) → List NamedAgentConfig
  | none => []
  | some agents => agents.entries.map fun entry => named entry.1 entry.2

def selectSingleAgent (agents : Option (Pass String AgentConfig)) : Option NamedAgentConfig :=
  (listNamedAgents agents).head?

structure AdaptedAgentConfig where
  agent : String
  model : Option ProviderModel
  tools : Option (Dictionary String Bool)

/-- What may be used, without what may not; nothing if neither is said. -/
def buildToolsPermissionsMap (allowed denied : Option (List String)) :
    Option (Dictionary String Bool) :=
  let tools := (denied.getD []).foldl (fun map tool => map.insert tool false)
    ((allowed.getD []).foldl (fun map tool => map.insert tool true) ∅)
  if tools = ∅ then none else some tools

def adaptNamedAgentForOpencode (agent : NamedAgentConfig) : Except String AdaptedAgentConfig :=
  let adapted (model : Option ProviderModel) : AdaptedAgentConfig :=
    { agent := agent.opencodeAgentName
      model
      tools := buildToolsPermissionsMap agent.config.tools agent.config.disallowedTools }
  match agent.config.model with
  | none => .ok (adapted none)
  | some modelRef =>
      match parseModelRef modelRef with
      | some model => .ok (adapted (some model))
      | none =>
          .error ("Invalid OpenCode agent model ref for '" ++ agent.key ++ "': '" ++ modelRef ++
            "'. Expected format '<provider>/<model>' (for example 'anthropic/claude-3-5-sonnet').")

/-- The agent that the prompt of a node is sent to, as the server is told. -/
def promptAgent (agents : Option (Pass String AgentConfig)) :
    Option (Except String AdaptedAgentConfig) :=
  (selectSingleAgent agents).map adaptNamedAgentForOpencode

theorem selectSingleAgent_eq (pass : Pass String AgentConfig) :
    selectSingleAgent (some pass) =
      pass.entries.head?.map fun entry => named entry.1 entry.2 := by
  rw [selectSingleAgent, listNamedAgents, List.head?_map]

theorem exists_selectSingleAgent {agents : Dictionary String AgentConfig} {key : String}
    {config : AgentConfig} (entry : agents.lookup key = some config) :
    ∃ pass, Meets pass agents ∧ selectSingleAgent (some pass) = some (named key config) := by
  rcases exists_meets_first entry with ⟨pass, meets, first⟩
  refine ⟨pass, meets, ?_⟩
  rw [selectSingleAgent_eq, first, Option.map_some]

/-- With two agents or more no agent is the selected one whatever the pass, and what the
server is told is determined by the map exactly if all its agents come to the same. -/
theorem selectSingleAgent_not_determined (agents : Dictionary String AgentConfig)
    (several : 2 ≤ agents.keys.card) :
    ¬Determined agents (fun pass => selectSingleAgent (some pass)) ∧
      (Determined agents (fun pass => promptAgent (some pass)) ↔
        ∃ told, ∀ key config, agents.lookup key = some config →
          adaptNamedAgentForOpencode (named key config) = told) := by
  have nonempty : agents ≠ ∅ := by
    intro empty
    rw [empty] at several
    exact absurd several (by decide)
  constructor
  · intro determined
    have first : (fun pass => selectSingleAgent (some pass)) =
        fun pass : Pass String AgentConfig =>
          pass.entries.head?.map fun entry => named entry.1 entry.2 := by
      funext pass
      exact selectSingleAgent_eq pass
    rw [first, determined_first_iff nonempty] at determined
    rcases determined with ⟨agent, same⟩
    have one : ∀ key ∈ agents.keys, key = agent.key := by
      intro key known
      rcases Finmap.mem_iff.mp (Finmap.mem_keys.mp known) with ⟨config, entry⟩
      exact congrArg NamedAgentConfig.key (same key config entry)
    have few : agents.keys.card ≤ 1 :=
      Finset.card_le_one.mpr fun key known other alsoKnown =>
        (one key known).trans (one other alsoKnown).symm
    omega
  · have first : (fun pass => promptAgent (some pass)) =
        fun pass : Pass String AgentConfig => pass.entries.head?.map
          fun entry => adaptNamedAgentForOpencode (named entry.1 entry.2) := by
      funext pass
      rw [promptAgent, selectSingleAgent_eq, Option.map_map]
      rfl
    rw [first]
    exact determined_first_iff nonempty _

def reviewAgents : Dictionary String AgentConfig :=
  [⟨"reviewer", { description := "reviews", prompt := "Review.", tools := some ["read"] }⟩,
    ⟨"fixer", { description := "fixes", prompt := "Fix.", tools := some ["read", "write"] }⟩].toFinmap

theorem reviewAgents_not_determined :
    ¬Determined reviewAgents (fun pass => selectSingleAgent (some pass)) ∧
      (Determined reviewAgents (fun pass => promptAgent (some pass)) ↔
        ∃ told, ∀ key config, reviewAgents.lookup key = some config →
          adaptNamedAgentForOpencode (named key config) = told) :=
  selectSingleAgent_not_determined reviewAgents (by decide)

theorem reviewAgents_either :
    ¬∀ agents : Dictionary String AgentConfig, 2 ≤ agents.keys.card →
      Determined agents fun pass => selectSingleAgent (some pass) := by
  intro claimed
  rcases claimed reviewAgents (by decide) with ⟨agent, same⟩
  rcases @exists_selectSingleAgent reviewAgents "reviewer" _ rfl with ⟨pass, meets, reviewer⟩
  rcases @exists_selectSingleAgent reviewAgents "fixer" _ rfl with ⟨other, again, fixer⟩
  have both := (same pass meets).trans (same other again).symm
  dsimp only at both
  rw [reviewer, fixer] at both
  exact absurd (congrArg (Option.map NamedAgentConfig.key) both) (by decide)

end OpenCode

end HarnessAgent
