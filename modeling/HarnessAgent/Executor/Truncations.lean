import HarnessAgent.Executor.AiNode
import HarnessAgent.Isolation.WorktreeProvider
import HarnessAgent.Provider.ClaudeTranscript

/-! # Texts that are cut

A running node cuts texts for its users and for its errors: its prompt, the input of a
tool, the output of a tool, and a `.git` file it cannot make sense of. A text is cut after
a number of bytes, and cutting inside a character panics.
-/

namespace HarnessAgent

open Text AiNode

def cutAfter (limit : Nat) (text : String) : Option String :=
  if limit < byteLength text.toList then
    (takeBytes limit text.toList).map fun start => String.ofList start ++ "..."
  else some text

theorem not_straddles_of_short (short : byteLength text ≤ limit) : ¬Straddles limit text := by
  intro straddles
  rcases straddles with ⟨before, character, after, split, -, above⟩
  rw [split, byteLength_append, byteLength_cons] at short
  omega

theorem cutAfter_eq_none_iff {limit : Nat} {text : String} :
    cutAfter limit text = none ↔ Straddles limit text.toList := by
  rw [cutAfter]
  split
  · next long => rw [Option.map_eq_none_iff, takeBytes_eq_none_iff (Nat.le_of_lt long)]
  · next short =>
      exact iff_of_false (Option.some_ne_none _) (not_straddles_of_short (Nat.not_lt.mp short))

def guardedField (toolName guard field : String) (toolInput : Value) : Option String :=
  if toolName = guard then toolInput.getStr field else none

def mcpBrief (toolName : String) : Option String :=
  if "mcp__".toList.isPrefixOf toolName.toList then
    let parts := splitPair '_' '_' toolName.toList
    if 2 ≤ parts.length then
      some ("MCP: " ++ String.ofList (List.intercalate [' '] (parts.drop 1)))
    else none
  else none

variable (render : Value → String)

/-- What is shown of a tool's input, unless cutting it panics. -/
def extractToolBrief (toolName : String) (toolInput : Value) : Option String :=
  match guardedField toolName "Bash" "command" toolInput with
  | some command => cutAfter 100 command
  | none =>
      match guardedField toolName "Read" "file_path" toolInput with
      | some path => some ("Reading: " ++ path)
      | none =>
          match guardedField toolName "Write" "file_path" toolInput with
          | some path => some ("Writing: " ++ path)
          | none =>
              match guardedField toolName "Edit" "file_path" toolInput with
              | some path => some ("Editing: " ++ path)
              | none =>
                  match guardedField toolName "Glob" "pattern" toolInput with
                  | some pattern => some ("Pattern: " ++ pattern)
                  | none =>
                      match guardedField toolName "Grep" "pattern" toolInput with
                      | some pattern => some ("Searching: " ++ pattern)
                      | none =>
                          match mcpBrief toolName with
                          | some brief => some brief
                          | none => cutAfter 80 (render toolInput)

def guardedTools : List (String × String) :=
  [("Bash", "command"), ("Read", "file_path"), ("Write", "file_path"), ("Edit", "file_path"),
    ("Glob", "pattern"), ("Grep", "pattern")]

def ShownAsJson (toolName : String) (toolInput : Value) : Prop :=
  (∀ tool ∈ guardedTools, guardedField toolName tool.1 tool.2 toolInput = none) ∧
    mcpBrief toolName = none

def BriefIsWhole (toolName : String) (toolInput : Value) : Prop :=
  (∀ command, guardedField toolName "Bash" "command" toolInput = some command →
    ¬Straddles 100 command.toList) ∧
  (ShownAsJson toolName toolInput → ¬Straddles 80 (render toolInput).toList)

theorem extractToolBrief_isSome_iff (toolName : String) (toolInput : Value) :
    (extractToolBrief render toolName toolInput).isSome = true ↔
      BriefIsWhole render toolName toolInput := by
  rw [BriefIsWhole, ShownAsJson, guardedTools, List.forall_mem_cons, List.forall_mem_cons,
    List.forall_mem_cons, List.forall_mem_cons, List.forall_mem_cons, List.forall_mem_singleton,
    extractToolBrief]
  cases guardedField toolName "Bash" "command" toolInput with
  | some command => simp [← Option.ne_none_iff_isSome, ← cutAfter_eq_none_iff]
  | none =>
      cases guardedField toolName "Read" "file_path" toolInput with
      | some path => simp
      | none =>
          cases guardedField toolName "Write" "file_path" toolInput with
          | some path => simp
          | none =>
              cases guardedField toolName "Edit" "file_path" toolInput with
              | some path => simp
              | none =>
                  cases guardedField toolName "Glob" "pattern" toolInput with
                  | some pattern => simp
                  | none =>
                      cases guardedField toolName "Grep" "pattern" toolInput with
                      | some pattern => simp
                      | none =>
                          cases mcpBrief toolName with
                          | some brief => simp
                          | none =>
                              simp [← Option.ne_none_iff_isSome, ← cutAfter_eq_none_iff]

def NameIsWhole : DagNode → Prop
  | .prompt node => ¬Straddles 50 node.prompt.toList
  | _ => True

theorem nodeDisplayName_isSome_iff (node : DagNode) :
    (nodeDisplayName node).isSome = true ↔ NameIsWhole node := by
  cases node with
  | prompt node =>
      rw [nodeDisplayName, NameIsWhole]
      split
      · next long =>
          rw [Option.isSome_map, ← Option.ne_none_iff_isSome, ne_eq,
            takeBytes_eq_none_iff (Nat.le_of_lt long)]
      · next short => exact iff_of_true rfl (not_straddles_of_short (Nat.not_lt.mp short))
  | command node => exact iff_of_true rfl trivial
  | bash node => exact iff_of_true rfl trivial
  | script node => exact iff_of_true rfl trivial
  | loop node => exact iff_of_true rfl trivial
  | approval node => exact iff_of_true rfl trivial
  | cancel node => exact iff_of_true rfl trivial

def prefixUpTo (limit : Nat) (text : List Char) : Option (List Char) :=
  takeBytes (min (byteLength text) limit) text

theorem prefixUpTo_eq_none_iff {limit : Nat} {text : List Char} :
    prefixUpTo limit text = none ↔ Straddles limit text := by
  rw [prefixUpTo, takeBytes_eq_none_iff (Nat.min_le_left _ _)]
  rcases Nat.le_total (byteLength text) limit with short | long
  · rw [Nat.min_eq_left short]
    exact iff_of_false (not_straddles_of_short (Nat.le_refl _)) (not_straddles_of_short short)
  · rw [Nat.min_eq_right long]

/-- The repository that a `.git` file points to, unless a text that is cut panics. The
longer prefix is cut for the log, if errors are logged. -/
def canonicalPathOf (logged : Bool) (path content : List Char) :
    Option (Except IsolationError LexicalPath.Path) :=
  if "gitdir:".toList.isPrefixOf content then
    match extractRepoFromGitdir content with
    | some repoPath => some (WorktreeProvider.toRepoPath repoPath)
    | none =>
        if logged && (prefixUpTo 120 content).isNone then none
        else
          (prefixUpTo 80 content).map fun shown =>
            .error (.other (processError
              ("Cannot determine canonical repo path from worktree at ".toList ++ path ++
                ". Unexpected .git file format: ".toList ++ shown)))
  else some (WorktreeProvider.toRepoPath path)

/-- The prefixes of a `.git` file that names no repository are cut between characters. -/
def PointerIsWhole (logged : Bool) (content : List Char) : Prop :=
  "gitdir:".toList.isPrefixOf content = true → extractRepoFromGitdir content = none →
    ¬Straddles 80 content ∧ (logged = true → ¬Straddles 120 content)

theorem canonicalPathOf_isSome_iff (logged : Bool) (path content : List Char) :
    (canonicalPathOf logged path content).isSome = true ↔ PointerIsWhole logged content := by
  rw [canonicalPathOf, PointerIsWhole, ← prefixUpTo_eq_none_iff, ← prefixUpTo_eq_none_iff]
  by_cases names : "gitdir:".toList.isPrefixOf content = true
  · rw [if_pos names, forall_prop_of_true names]
    cases extractRepoFromGitdir content with
    | some repoPath => simp
    | none =>
        cases logged with
        | false => simp [Option.isSome_iff_ne_none]
        | true =>
            cases prefixUpTo 120 content with
            | none => simp
            | some shown => simp [Option.isSome_iff_ne_none]
  · rw [if_neg names]
    exact iff_of_true rfl fun named => absurd named names

/-- Each text is cut without a panic exactly if the place of the cut is between two
characters. -/
theorem truncations_return_iff (node : DagNode) (toolName : String) (toolInput : Value)
    (rawOutput : String) (logged : Bool) (path content : List Char) :
    ((nodeDisplayName node).isSome = true ↔ NameIsWhole node) ∧
      ((extractToolBrief render toolName toolInput).isSome = true ↔
        BriefIsWhole render toolName toolInput) ∧
      ((Claude.truncateToolOutput rawOutput).isSome = true ↔
        ¬Straddles Claude.maxToolOutputLen rawOutput.toList) ∧
      ((canonicalPathOf logged path content).isSome = true ↔ PointerIsWhole logged content) := by
  refine ⟨nodeDisplayName_isSome_iff node, extractToolBrief_isSome_iff render toolName toolInput,
    ?_, canonicalPathOf_isSome_iff logged path content⟩
  rw [← Option.ne_none_iff_isSome, ne_eq, Claude.truncateToolOutput_eq_none_iff]

/-- A text whose last character, of two bytes, begins behind a number of letters. -/
def accented (count : Nat) : List Char :=
  List.replicate count 'a' ++ ['é']

theorem straddles_append (below : byteLength before < bytes)
    (above : bytes < byteLength before + character.utf8Size) :
    Straddles bytes (before ++ [character]) :=
  ⟨before, character, [], rfl, below, above⟩

theorem byteLength_replicate (count : Nat) : byteLength (List.replicate count 'a') = count := by
  rw [byteLength, List.map_replicate, List.sum_replicate]
  exact Nat.mul_one count

theorem straddles_accented (count : Nat) : Straddles (count + 1) (accented count) := by
  apply straddles_append
  · rw [byteLength_replicate]
    omega
  · rw [byteLength_replicate]
    have size : Char.utf8Size 'é' = 2 := rfl
    omega

/-- A prompt, a command, an output and a `.git` file that are cut inside their last
character. -/
theorem truncations_panic :
    nodeDisplayName (.prompt { base := { id := "ask" }, prompt := String.ofList (accented 49) }) =
        none ∧
      extractToolBrief (fun _ => "") "Bash"
        (.object [("command", .string (String.ofList (accented 99)))]) = none ∧
      Claude.truncateToolOutput (String.ofList (accented 9999)) = none ∧
      canonicalPathOf false [] ("gitdir:".toList ++ accented 72) = none := by
  have name := nodeDisplayName_isSome_iff
    (.prompt { base := { id := "ask" }, prompt := String.ofList (accented 49) })
  have brief := extractToolBrief_isSome_iff (fun _ => "") "Bash"
    (.object [("command", .string (String.ofList (accented 99)))])
  have pointer := canonicalPathOf_isSome_iff false [] ("gitdir:".toList ++ accented 72)
  refine ⟨?_, ?_, ?_, ?_⟩
  · rw [← Option.not_isSome_iff_eq_none, name, NameIsWhole, String.toList_ofList, not_not]
    exact straddles_accented 49
  · rw [← Option.not_isSome_iff_eq_none, brief, BriefIsWhole]
    intro whole
    apply whole.1 _ rfl
    rw [String.toList_ofList]
    exact straddles_accented 99
  · rw [Claude.truncateToolOutput_eq_none_iff, String.toList_ofList]
    exact straddles_accented 9999
  · rw [← Option.not_isSome_iff_eq_none, pointer, PointerIsWhole]
    intro whole
    apply (whole rfl rfl).1
    rw [accented, ← List.append_assoc]
    apply straddles_append
    · decide
    · decide

end HarnessAgent
