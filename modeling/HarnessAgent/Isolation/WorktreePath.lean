import HarnessAgent.Foundation.LexicalPath
import HarnessAgent.Foundation.Text

/-! # Worktree paths

Where the worktree of an isolation request goes: below the base directory of the
repository, under the name of its branch.
-/

namespace HarnessAgent

open LexicalPath

abbrev BranchName := List Char

structure IsolationRequestBase where
  codebaseName : Option (List Char) := none
  canonicalRepoPath : Path
  deriving DecidableEq, Repr

inductive IsolationRequest where
  | issue (base : IsolationRequestBase) (identifier : List Char)
  | pr (base : IsolationRequestBase) (identifier : List Char) (prBranch : BranchName)
      (prSha : Option (List Char)) (isForkPr : Bool)
  | review (base : IsolationRequestBase) (identifier : List Char)
  | thread (base : IsolationRequestBase) (identifier : List Char)
  | task (base : IsolationRequestBase) (identifier : List Char) (fromBranch : Option BranchName)
  deriving DecidableEq, Repr

def IsolationRequest.base : IsolationRequest → IsolationRequestBase
  | .issue base _ | .pr base _ _ _ _ | .review base _ | .thread base _ | .task base _ _ => base

inductive IsolationError where
  | other (message : List Char)
  | git (message : List Char)
  /-- The code does not return. -/
  | panicked (message : List Char)
  deriving DecidableEq, Repr

structure WorktreeCreateConfig where
  baseBranch : Option BranchName := none
  copyFiles : Option (List (List Char)) := none
  initSubmodules : Option Bool := none
  path : Option (List Char) := none
  deriving DecidableEq, Repr

/-! ## Branch names -/

namespace WorktreeProvider

def isSlugCharacter (character : Char) : Bool :=
  character.isLower || character.isDigit

/-- Runs of other characters become one dash each. -/
def replaceRuns : Bool → List Char → List Char
  | _, [] => []
  | inRun, character :: rest =>
      if isSlugCharacter character then character :: replaceRuns false rest
      else if inRun then replaceRuns true rest
      else '-' :: replaceRuns true rest

-- What is left is ASCII, so the fiftieth byte ends the fiftieth character.
def slugify (input : List Char) : List Char :=
  let replaced := replaceRuns false (Text.lowercase input)
  let stripped := ((replaced.dropWhile (· = '-')).reverse.dropWhile (· = '-')).reverse
  if 50 < stripped.length then stripped.take 50 else stripped

def generateBranchName (shortHash : List Char → List Char) : IsolationRequest → BranchName
  | .issue _ identifier => "archon/issue-".toList ++ identifier
  | .pr _ identifier prBranch _ isForkPr =>
      if !isForkPr then prBranch
      else "archon/pr-".toList ++ identifier ++ "-review".toList
  | .review _ identifier => "archon/review-".toList ++ identifier
  | .thread _ identifier => "archon/thread-".toList ++ shortHash identifier
  | .task _ identifier _ => "archon/task-".toList ++ slugify identifier

/-! ## The override of a repository -/

def normalizeStep (stack : List Segment) : Component → List Segment
  | .normal name => name :: stack
  | .curDir => stack
  | .parentDir =>
      match stack with
      | last :: rest => if last ≠ "..".toList then rest else "..".toList :: stack
      | [] => ["..".toList]
  | .rootDir => ["/".toList]

/-- The stack has the last component first. -/
def normalizePathStr (path : Path) : Path :=
  joinAll ((components path).foldl normalizeStep []).reverse

/-- Whether a normalized path shows a segment that leads out of the repository. -/
def showsParent (normalized : Path) : Bool :=
  normalized = "..".toList ∨ "../".toList <+: normalized ∨ "..\\".toList <+: normalized ∨
    "/../".toList <:+: normalized ∨ "\\..\\".toList <:+: normalized

def resolveRepoLocalOverride (canonicalize : Path → Option Path) (rawPath : Option (List Char))
    (repoRoot : Path) : Except IsolationError (Option Path) :=
  match rawPath with
  | none => .ok none
  | some raw =>
      let trimmed := Text.trim raw
      if trimmed.isEmpty then .ok none
      else if isAbsolute trimmed then
        .error (.other (".archon/config.yaml worktree.path must be relative to the repo root (got absolute: ".toList
          ++ trimmed
          ++ "). For an absolute location, set ~/.archon/config.yaml paths.worktrees instead.".toList))
      else
        let normalized := normalizePathStr trimmed
        if showsParent normalized then
          .error (.other (".archon/config.yaml worktree.path must stay within the repo (got: ".toList
            ++ trimmed ++ "). Remove any `..` segments.".toList))
        else
          let repoRootResolved := (canonicalize repoRoot).getD repoRoot
          let resolved := join repoRootResolved normalized
          if components resolved ≠ components repoRootResolved ∧
              ¬components (join repoRootResolved []) <+: components resolved then
            .error (.other (".archon/config.yaml worktree.path resolves outside the repo root (got: ".toList
              ++ trimmed ++ " → ".toList ++ resolved ++ ").".toList))
          else .ok (some normalized)

/-! ## The base directory -/

def separated (text : List Char) : List Segment :=
  (text.splitOnP fun character => character == '/' || character == '\\').filter (· ≠ [])

def extractOwnerRepo (repoPath : Path) : Except IsolationError (Segment × Segment) :=
  match (separated repoPath).reverse with
  | repo :: owner :: _ => .ok (owner, repo)
  | _ =>
      .error (.panicked ("Cannot extract owner/repo from path \"".toList ++ repoPath ++
        "\": expected at least 2 path segments".toList))

def getArchonWorkspacesPath (archonHome : Except (List Char) Path) : Except (List Char) Path :=
  archonHome.map (join · "workspaces".toList)

def ownerRepoOfName (codebaseName : List Char) : Option (Segment × Segment) :=
  match codebaseName.splitOn '/' with
  | [owner, repo] => if owner ≠ [] ∧ repo ≠ [] then some (owner, repo) else none
  | _ => none

def ownerRepoOfWorkspace (workspaces repoPath : Path) : Option (Segment × Segment) :=
  if workspaces <+: repoPath then
    let relative :=
      ((repoPath.drop workspaces.length).dropWhile (· = '/')).dropWhile (· = '\\')
    match separated relative with
    | owner :: repo :: _ => some (owner, repo)
    | _ => none
  else none

def resolveOwnerRepo (archonHome : Except (List Char) Path) (repoPath : Path)
    (codebaseName : Option (List Char)) : Except IsolationError (Segment × Segment) :=
  match codebaseName.bind ownerRepoOfName with
  | some found => .ok found
  | none =>
      match getArchonWorkspacesPath archonHome with
      | .ok workspaces =>
          match ownerRepoOfWorkspace workspaces repoPath with
          | some found => .ok found
          | none => extractOwnerRepo repoPath
      | .error _ => extractOwnerRepo repoPath

def getProjectWorktreesPath (archonHome : Except (List Char) Path) (owner repo : Segment) :
    Except (List Char) Path :=
  (getArchonWorkspacesPath archonHome).map fun workspaces =>
    join (join (join workspaces owner) repo) "worktrees".toList

def getWorktreeBase (archonHome : Except (List Char) Path) (repoPath : Path)
    (codebaseName : Option (List Char)) (repoLocal : Option Path) : Except IsolationError Path :=
  match repoLocal with
  | some repoLocal => .ok (join repoPath repoLocal)
  | none => do
      let found ← resolveOwnerRepo archonHome repoPath codebaseName
      (getProjectWorktreesPath archonHome found.1 found.2).mapError .other

def toRepoPath (path : Path) : Except IsolationError Path :=
  if path = [] then .error (.other "RepoPath cannot be empty".toList) else .ok path

structure Surroundings where
  /-- Of a path that exists, the absolute one without links. -/
  canonicalize : Path → Option Path
  archonHome : Except (List Char) Path

/-- The base directory of a request. -/
def baseDirectory (around : Surroundings) (request : IsolationRequest)
    (config : Option WorktreeCreateConfig) : Except IsolationError Path := do
  let repoLocal ← resolveRepoLocalOverride around.canonicalize (config.bind (·.path))
    request.base.canonicalRepoPath
  let repoPath ← toRepoPath request.base.canonicalRepoPath
  getWorktreeBase around.archonHome repoPath request.base.codebaseName repoLocal

def getWorktreePath (around : Surroundings) (request : IsolationRequest) (branchName : BranchName)
    (config : Option WorktreeCreateConfig) : Except IsolationError Path := do
  let baseDir ← baseDirectory around request config
  .ok (join baseDir branchName)

/-! ## Normalizing -/

def stackOf (place : Place) : List Segment :=
  place.trail ++ List.replicate place.ups "..".toList

variable {place : Place}

theorem normalizeStep_stackOf {segment : Segment} (relative : place.absolute = false)
    (plain : ∀ name ∈ place.trail, Place.Plain name) (notDot : segment ≠ ['.']) :
    normalizeStep (stackOf place) (Component.ofSegment segment) =
      stackOf (place.enter segment) := by
  rcases place with ⟨absolute, ups, trail⟩
  rw [Component.ofSegment, Place.enter, if_neg notDot]
  by_cases dots : segment = ['.', '.']
  · rw [if_pos dots, if_pos dots]
    cases trail with
    | cons name outer =>
        have named : name ≠ ['.', '.'] := (plain name List.mem_cons_self).2
        simp [stackOf, normalizeStep, named]
    | nil =>
        cases relative
        cases ups with
        | zero => rfl
        | succ ups => simp [stackOf, normalizeStep, List.replicate_succ]
  · rw [if_neg dots, if_neg dots]
    rfl

theorem foldl_normalizeStep {path : List Segment} (relative : place.absolute = false)
    (plain : ∀ name ∈ place.trail, Place.Plain name) :
    ((path.filter (· ≠ ['.'])).map Component.ofSegment).foldl normalizeStep (stackOf place) =
      stackOf (place.enterAll path) := by
  induction path generalizing place with
  | nil => rfl
  | cons segment path induction =>
      have enters : place.enterAll (segment :: path) = (place.enter segment).enterAll path := rfl
      rw [enters]
      by_cases dot : segment = ['.']
      · have stays : place.enter segment = place := by rw [Place.enter, if_pos dot]
        rw [stays, List.filter_cons_of_neg (by simp [dot])]
        exact induction relative plain
      · have next : ∀ name ∈ (place.enter segment).trail, Place.Plain name := by
          intro name member
          rcases Place.mem_trail_enter member with ⟨rfl, named⟩ | earlier
          · exact named
          · exact plain name earlier
        have kept : (place.enter segment).absolute = false := by
          rw [Place.absolute_enter, relative]
        rw [List.filter_cons_of_pos (by simp [dot]), List.map_cons, List.foldl_cons,
          normalizeStep_stackOf relative plain dot]
        exact induction kept next

variable {path : Path}

theorem normalizePathStr_eq (relative : isAbsolute path = false) :
    normalizePathStr path =
      joinAll (List.replicate (Place.resolve path).ups "..".toList ++
        (Place.resolve path).trail.reverse) := by
  have stack : (components path).foldl normalizeStep [] = stackOf (Place.resolve path) := by
    have start : stackOf { absolute := false } = [] := rfl
    rw [components, relative, List.foldl_append, Place.resolve, relative]
    have skipped :
        (if (segments path).head? = some ['.'] then [Component.curDir] else []).foldl
          normalizeStep [] = stackOf { absolute := false } := by
      split
      · rfl
      · rfl
    simp only [Bool.false_eq_true, if_false]
    rw [skipped]
    apply foldl_normalizeStep rfl
    intro name member
    cases member
  rw [normalizePathStr, stack, stackOf, List.reverse_append, List.reverse_replicate]

theorem proper_normalized (path : Path) :
    ∀ name ∈ List.replicate (Place.resolve path).ups "..".toList ++
      (Place.resolve path).trail.reverse, Proper name := by
  intro name member
  rcases List.mem_append.mp member with up | down
  · rw [List.eq_of_mem_replicate up]
    exact ⟨by decide, by decide⟩
  · exact (Place.mem_trail_resolve (List.mem_reverse.mp down)).1

theorem showsParent_of_ups (relative : isAbsolute path = false)
    (climbs : (Place.resolve path).ups ≠ 0) : showsParent (normalizePathStr path) = true := by
  have proper := proper_normalized path
  rw [normalizePathStr_eq relative]
  cases ups : (Place.resolve path).ups with
  | zero => exact absurd ups climbs
  | succ ups' =>
      rw [ups, List.replicate_succ, List.cons_append] at proper
      rw [List.replicate_succ, List.cons_append, showsParent, decide_eq_true_iff]
      rcases joinAll_cons proper with only | longer
      · exact Or.inl only
      · exact Or.inr (Or.inl longer)

theorem resolve_normalizePathStr (relative : isAbsolute path = false)
    (stays : (Place.resolve path).ups = 0) :
    Place.resolve (normalizePathStr path) = Place.resolve path := by
  rw [normalizePathStr_eq relative, Place.resolve_joinAll (proper_normalized path), stays,
    List.replicate_zero, List.nil_append, Place.enterAll_of_plain]
  · have kept : (Place.resolve path).absolute = false := by
      rw [Place.resolve, Place.absolute_enterAll]
      exact relative
    rcases place : Place.resolve path with ⟨absolute, ups, trail⟩
    rw [place] at kept stays
    cases kept
    cases stays
    simp
  · intro name member
    exact (Place.mem_trail_resolve (List.mem_reverse.mp member)).2

theorem isAbsolute_normalizePathStr (relative : isAbsolute path = false)
    (stays : (Place.resolve path).ups = 0) : isAbsolute (normalizePathStr path) = false := by
  rw [← Place.absolute_resolve, resolve_normalizePathStr relative stays, Place.absolute_resolve,
    relative]

/-! ## The base -/

def configuredPath (config : Option WorktreeCreateConfig) : Option Path :=
  ((config.bind (·.path)).map Text.trim).filter (· ≠ [])

variable {config : Option WorktreeCreateConfig}

theorem resolveRepoLocalOverride_of_none (canonicalize : Path → Option Path) (repoRoot : Path)
    (unset : configuredPath config = none) :
    resolveRepoLocalOverride canonicalize (config.bind (·.path)) repoRoot = .ok none := by
  rw [configuredPath] at unset
  cases raw : config.bind (·.path) with
  | none => rfl
  | some raw' =>
      rw [raw] at unset
      have blank : Text.trim raw' = [] := by simpa using unset
      simp [resolveRepoLocalOverride, blank]

theorem resolveRepoLocalOverride_of_some (set : configuredPath config = some configured)
    (accepted : resolveRepoLocalOverride canonicalize (config.bind (·.path)) repoRoot =
      .ok repoLocal) :
    isAbsolute configured = false ∧ (Place.resolve configured).ups = 0 ∧
      repoLocal = some (normalizePathStr configured) := by
  rw [configuredPath] at set
  cases raw : config.bind (·.path) with
  | none =>
      rw [raw] at set
      cases set
  | some raw' =>
      rw [raw] at set accepted
      simp only [Option.map_some, Option.filter_eq_some_iff, Option.some.injEq, ne_eq,
        decide_not, Bool.not_eq_true', decide_eq_false_iff_not] at set
      rw [resolveRepoLocalOverride, set.1] at accepted
      simp only [List.isEmpty_iff, set.2, if_false] at accepted
      split at accepted
      · cases accepted
      · next relative =>
          split at accepted
          · cases accepted
          · next hidden =>
              split at accepted
              · cases accepted
              · rw [Bool.not_eq_true] at relative
                refine ⟨relative, ?_, ?_⟩
                · by_contra climbs
                  exact hidden (showsParent_of_ups relative climbs)
                · cases accepted
                  rfl

variable {repoPath : Path}

theorem toRepoPath_eq_ok (accepted : toRepoPath path = .ok repoPath) :
    path ≠ [] ∧ repoPath = path := by
  rw [toRepoPath] at accepted
  split at accepted
  · cases accepted
  · next nonempty =>
      cases accepted
      exact ⟨nonempty, rfl⟩

variable {base : Path} {archonHome : Except (List Char) Path}

theorem getWorktreeBase_eq_ok
    (accepted : getWorktreeBase archonHome repoPath codebaseName none = .ok base) :
    ∃ found workspaces, resolveOwnerRepo archonHome repoPath codebaseName = .ok found ∧
      getArchonWorkspacesPath archonHome = .ok workspaces ∧
      base = join (join (join workspaces found.1) found.2) "worktrees".toList := by
  rw [getWorktreeBase] at accepted
  cases owned : resolveOwnerRepo archonHome repoPath codebaseName with
  | error error =>
      rw [owned] at accepted
      cases accepted
  | ok found =>
      rw [owned] at accepted
      cases archonHome with
      | error error => cases accepted
      | ok home =>
          cases accepted
          exact ⟨found, _, rfl, rfl, rfl⟩

variable {request : IsolationRequest} {around : Surroundings}

theorem baseDirectory_eq_ok (accepted : baseDirectory around request config = .ok base) :
    request.base.canonicalRepoPath ≠ [] ∧
      ((∃ configured, configuredPath config = some configured ∧ isAbsolute configured = false ∧
          (Place.resolve configured).ups = 0 ∧
          base = join request.base.canonicalRepoPath (normalizePathStr configured)) ∨
        (configuredPath config = none ∧ ∃ found workspaces,
          resolveOwnerRepo around.archonHome request.base.canonicalRepoPath
            request.base.codebaseName = .ok found ∧
          getArchonWorkspacesPath around.archonHome = .ok workspaces ∧
          base = join (join (join workspaces found.1) found.2) "worktrees".toList)) := by
  rw [baseDirectory] at accepted
  cases override : resolveRepoLocalOverride around.canonicalize (config.bind (·.path))
    request.base.canonicalRepoPath with
  | error error =>
      rw [override] at accepted
      cases accepted
  | ok repoLocal =>
      cases rooted : toRepoPath request.base.canonicalRepoPath with
      | error error =>
          rw [override, rooted] at accepted
          cases accepted
      | ok repoPath =>
          rcases toRepoPath_eq_ok rooted with ⟨nonempty, rfl⟩
          rw [override, rooted] at accepted
          refine ⟨nonempty, ?_⟩
          cases set : configuredPath config with
          | some configured =>
              rcases resolveRepoLocalOverride_of_some set override with ⟨relative, stays, rfl⟩
              cases accepted
              exact Or.inl ⟨configured, rfl, relative, stays, rfl⟩
          | none =>
              have unset := resolveRepoLocalOverride_of_none around.canonicalize
                request.base.canonicalRepoPath set
              rw [override] at unset
              cases unset
              right
              exact ⟨rfl, getWorktreeBase_eq_ok accepted⟩

theorem proper_of_mem_separated {segment : Segment} (member : segment ∈ separated text) :
    Proper segment := by
  rcases List.mem_filter.mp member with ⟨part, nonempty⟩
  refine ⟨by simpa using nonempty, ?_⟩
  intro slash
  have other := Text.not_separator_of_mem_splitOnP part '/' slash
  simp at other

theorem proper_of_separated_eq (parts : separated text = first :: second :: rest) :
    Proper first ∧ Proper second := by
  have inside : ∀ part ∈ [first, second], part ∈ separated text := by
    intro part member
    rw [parts]
    exact List.mem_append_left rest member
  exact ⟨proper_of_mem_separated (inside first (by simp)),
    proper_of_mem_separated (inside second (by simp))⟩

variable {found : Segment × Segment}

theorem proper_of_ownerRepoOfName (owned : ownerRepoOfName name = some found) :
    Proper found.1 ∧ Proper found.2 := by
  rw [ownerRepoOfName] at owned
  split at owned
  next owner repo parts =>
    have noSlash : ∀ part ∈ [owner, repo], '/' ∉ part := by
      intro part member slash
      rw [← parts, List.splitOn_eq_splitOnP] at member
      have other := Text.not_separator_of_mem_splitOnP member '/' slash
      simp at other
    split at owned
    · next nonempty =>
        cases owned
        exact ⟨⟨nonempty.1, noSlash owner (by simp)⟩, nonempty.2, noSlash repo (by simp)⟩
    · cases owned
  next => cases owned

variable {workspaces : Path}

theorem proper_of_ownerRepoOfWorkspace
    (owned : ownerRepoOfWorkspace workspaces repoPath = some found) :
    Proper found.1 ∧ Proper found.2 := by
  rw [ownerRepoOfWorkspace] at owned
  split at owned
  · dsimp only at owned
    split at owned
    next owner repo rest parts =>
      cases owned
      exact proper_of_separated_eq parts
    next => cases owned
  · cases owned

theorem proper_of_extractOwnerRepo (owned : extractOwnerRepo repoPath = .ok found) :
    Proper found.1 ∧ Proper found.2 := by
  rw [extractOwnerRepo] at owned
  split at owned
  next repo owner rest parts =>
    cases owned
    have inside : ∀ part ∈ [repo, owner], part ∈ separated repoPath := by
      intro part member
      rw [← List.mem_reverse, parts]
      exact List.mem_append_left rest member
    exact ⟨proper_of_mem_separated (inside owner (by simp)),
      proper_of_mem_separated (inside repo (by simp))⟩
  next => cases owned

theorem proper_of_resolveOwnerRepo
    (owned : resolveOwnerRepo archonHome repoPath codebaseName = .ok found) :
    Proper found.1 ∧ Proper found.2 := by
  rw [resolveOwnerRepo] at owned
  split at owned
  next named =>
    cases owned
    rcases Option.bind_eq_some_iff.mp named with ⟨name, -, byName⟩
    exact proper_of_ownerRepoOfName byName
  next =>
    split at owned
    next =>
      split at owned
      next placed =>
        cases owned
        exact proper_of_ownerRepoOfWorkspace placed
      next => exact proper_of_extractOwnerRepo owned
    next => exact proper_of_extractOwnerRepo owned

/-! ## Where the base lies -/

/-- The names lead out of the workspaces directory in these ways only. -/
def KeepsToWorkspaces (owner repo : Segment) : Prop :=
  (owner = "..".toList → repo = "workspaces".toList) ∧
    ¬(owner = ".".toList ∧ repo = "..".toList)

theorem proper_worktrees : Proper "worktrees".toList :=
  ⟨by decide, by decide⟩

theorem resolve_workspaces_base (nonempty : workspaces ≠ []) (properOwner : Proper owner)
    (properRepo : Proper repo) :
    Place.resolve (join (join (join workspaces owner) repo) "worktrees".toList) =
      (Place.resolve workspaces).follow
        (Place.enterAll { absolute := false } [owner, repo, "worktrees".toList]) := by
  have properLast := proper_worktrees
  have ownerThere := join_ne_nil nonempty owner properOwner.isAbsolute_eq_false
  have repoThere := join_ne_nil ownerThere repo properRepo.isAbsolute_eq_false
  apply Place.resolve_of_segments
  · rw [isAbsolute_join repoThere properLast.isAbsolute_eq_false,
      isAbsolute_join ownerThere properRepo.isAbsolute_eq_false,
      isAbsolute_join nonempty properOwner.isAbsolute_eq_false]
  · rw [segments_join properLast.isAbsolute_eq_false, segments_join properRepo.isAbsolute_eq_false,
      segments_join properOwner.isAbsolute_eq_false, segments_of_segment properOwner.2 properOwner.1,
      segments_of_segment properRepo.2 properRepo.1, segments_of_segment properLast.2 properLast.1,
      List.append_assoc, List.append_assoc]
    rfl

theorem getArchonWorkspacesPath_eq_ok
    (found : getArchonWorkspacesPath archonHome = .ok workspaces) :
    workspaces ≠ [] ∧ ∃ outer, (Place.resolve workspaces).trail = "workspaces".toList :: outer := by
  cases archonHome with
  | error error => cases found
  | ok home =>
      cases found
      cases home with
      | nil => exact ⟨by decide, [], by decide⟩
      | cons first rest =>
          have nonempty : first :: rest ≠ [] := List.cons_ne_nil _ _
          have relative : isAbsolute "workspaces".toList = false := by decide
          refine ⟨join_ne_nil nonempty _ relative, (Place.resolve (first :: rest)).trail, ?_⟩
          have last : Place.resolve "workspaces".toList =
              { absolute := false, trail := ["workspaces".toList] } := by decide
          rw [Place.resolve_join nonempty relative, last]
          rfl

def added (owner repo : Segment) : Place :=
  Place.enterAll { absolute := false } [owner, repo, "worktrees".toList]

theorem plain_worktrees : Place.Plain "worktrees".toList :=
  ⟨by decide, by decide⟩

theorem added_eq (owner repo : Segment) :
    added owner repo =
      { (Place.enterAll { absolute := false } [owner, repo]) with
        trail := "worktrees".toList ::
          (Place.enterAll { absolute := false } [owner, repo]).trail } :=
  Place.enter_of_plain (Place.enterAll { absolute := false } [owner, repo]) plain_worktrees

theorem not_workspaces_suffix (outer : List Segment) :
    ¬"workspaces".toList :: outer <:+ ["worktrees".toList] := by
  intro suffix
  rcases List.suffix_cons_iff.mp suffix with same | shorter
  · have heads := (List.cons.inj same).1
    revert heads
    decide
  · cases List.suffix_nil.mp shorter

variable {outer : List Segment}

theorem not_inside_follow_of_climbs (named : place.trail = "workspaces".toList :: outer)
    (climbs : relative.ups ≠ 0) (short : relative.trail = ["worktrees".toList]) :
    ¬(place.follow relative).Inside place := by
  intro inside
  have suffix := (Place.inside_follow_iff.mp inside).2
  rw [named, short, ← Nat.succ_pred climbs, List.take_succ_cons] at suffix
  exact not_workspaces_suffix _ suffix

theorem inside_follow_returning_iff {repo : Segment}
    (named : place.trail = "workspaces".toList :: outer) :
    (place.follow { absolute := false, ups := 1, trail := ["worktrees".toList, repo] }).Inside
      place ↔ repo = "workspaces".toList := by
  rw [Place.inside_follow_iff, named]
  constructor
  · intro inside
    rcases List.suffix_cons_iff.mp inside.2 with same | shorter
    · cases same
    · rcases List.suffix_cons_iff.mp shorter with same | none
      · exact (List.cons.inj same).1.symm
      · cases List.suffix_nil.mp none
  · intro same
    rw [same]
    exact ⟨Or.inr (by simp), ⟨["worktrees".toList], rfl⟩⟩

theorem inside_follow_added_iff {owner repo : Segment}
    (named : place.trail = "workspaces".toList :: outer) :
    (place.follow (added owner repo)).Inside place ↔ KeepsToWorkspaces owner repo := by
  have firstOf : Place.enterAll { absolute := false } [owner, repo] =
      (Place.enter { absolute := false } owner).enter repo := rfl
  by_cases ownerDots : owner = "..".toList
  · have up : Place.enter { absolute := false } owner = { absolute := false, ups := 1 } := by
      rw [ownerDots]
      rfl
    by_cases plain : Place.Plain repo
    · have goal : added owner repo =
          { absolute := false, ups := 1, trail := ["worktrees".toList, repo] } := by
        rw [added_eq, firstOf, up, Place.enter_of_plain _ plain]
      rw [goal, inside_follow_returning_iff named]
      simp [KeepsToWorkspaces, ownerDots]
    · have goal : (added owner repo).ups ≠ 0 ∧ (added owner repo).trail = ["worktrees".toList] := by
        rw [added_eq, firstOf, up]
        by_cases dot : repo = ".".toList
        · rw [dot]
          decide
        · have dots : repo = "..".toList := by
            by_contra other
            exact plain ⟨dot, other⟩
          rw [dots]
          decide
      apply iff_of_false (not_inside_follow_of_climbs named goal.1 goal.2)
      intro keeps
      rw [keeps.1 ownerDots] at plain
      exact plain ⟨by decide, by decide⟩
  · by_cases ownerDot : owner = ".".toList
    · have here : Place.enter { absolute := false } owner = { absolute := false } := by
        rw [ownerDot]
        rfl
      by_cases repoDots : repo = "..".toList
      · have goal : (added owner repo).ups ≠ 0 ∧
            (added owner repo).trail = ["worktrees".toList] := by
          rw [added_eq, firstOf, here, repoDots]
          decide
        apply iff_of_false (not_inside_follow_of_climbs named goal.1 goal.2)
        intro keeps
        exact keeps.2 ⟨ownerDot, repoDots⟩
      · have goal : (added owner repo).ups = 0 := by
          have kept := Place.ups_enter { absolute := false } (Or.inl repoDots)
          rw [added_eq, firstOf, here]
          exact kept
        apply iff_of_true (Place.inside_follow_of_ups_eq_zero _ goal)
        exact ⟨fun same => absurd same ownerDots, fun both => repoDots both.2⟩
    · have goal : (added owner repo).ups = 0 := by
        have kept := @Place.ups_enter repo { absolute := false, trail := [owner] }
          (Or.inr (List.cons_ne_nil _ _))
        rw [added_eq, firstOf, Place.enter_of_plain _ ⟨ownerDot, ownerDots⟩]
        exact kept
      apply iff_of_true (Place.inside_follow_of_ups_eq_zero _ goal)
      exact ⟨fun same => absurd same ownerDots, fun both => ownerDot both.1⟩

theorem inside_workspaces_iff (nonempty : workspaces ≠ [])
    (named : (Place.resolve workspaces).trail = "workspaces".toList :: outer)
    (properOwner : Proper owner) (properRepo : Proper repo) :
    (Place.resolve (join (join (join workspaces owner) repo) "worktrees".toList)).Inside
      (Place.resolve workspaces) ↔ KeepsToWorkspaces owner repo := by
  rw [resolve_workspaces_base nonempty properOwner properRepo]
  exact inside_follow_added_iff named

def rootDirectory (around : Surroundings) (request : IsolationRequest)
    (config : Option WorktreeCreateConfig) : Except (List Char) Path :=
  match configuredPath config with
  | some _ => .ok request.base.canonicalRepoPath
  | none => getArchonWorkspacesPath around.archonHome

/-- The owner and the repository that the base is named after keep it in the
workspaces directory. -/
def KeepsOwner (around : Surroundings) (request : IsolationRequest)
    (config : Option WorktreeCreateConfig) : Prop :=
  configuredPath config = none → ∀ found,
    resolveOwnerRepo around.archonHome request.base.canonicalRepoPath
      request.base.codebaseName = .ok found →
    KeepsToWorkspaces found.1 found.2

theorem inside_rootDirectory_iff (accepted : baseDirectory around request config = .ok base) :
    (∀ root, rootDirectory around request config = .ok root →
      (Place.resolve base).Inside (Place.resolve root)) ↔ KeepsOwner around request config := by
  rcases baseDirectory_eq_ok accepted with ⟨nonempty, configured | shared⟩
  · rcases configured with ⟨configured, set, relative, stays, rfl⟩
    rw [rootDirectory, KeepsOwner, set]
    apply iff_of_true
    · intro root same
      cases same
      rw [Place.resolve_join nonempty (isAbsolute_normalizePathStr relative stays),
        resolve_normalizePathStr relative stays]
      exact Place.inside_follow_of_ups_eq_zero _ stays
    · intro unset
      cases unset
  · rcases shared with ⟨unset, found, workspaces, owned, home, rfl⟩
    rcases getArchonWorkspacesPath_eq_ok home with ⟨there, outer, named⟩
    rcases proper_of_resolveOwnerRepo owned with ⟨properOwner, properRepo⟩
    have inside := inside_workspaces_iff there named properOwner properRepo
    rw [rootDirectory, KeepsOwner, unset]
    constructor
    · intro always _ other owned'
      rw [owned] at owned'
      cases owned'
      exact inside.mp (always workspaces home)
    · intro keeps root home'
      rw [home] at home'
      cases home'
      exact inside.mpr (keeps rfl found owned)

/-- A branch name that leads below the base: it comes back down through the
directories that it has gone up and then further. -/
def StaysBelow (base : Path) (branchName : BranchName) : Prop :=
  let start := Place.resolve base
  let goal := Place.resolve branchName
  if isAbsolute branchName then
    start.absolute = true ∧ ∃ between, between ≠ [] ∧ goal.trail = between ++ start.trail
  else
    (start.absolute = true ∨ goal.ups ≤ start.trail.length) ∧
      ∃ between, between ≠ [] ∧ goal.trail = between ++ start.trail.take goal.ups

theorem strictlyInside_join_iff (nonempty : base ≠ []) (branchName : BranchName) :
    (Place.resolve (join base branchName)).StrictlyInside (Place.resolve base) ↔
      StaysBelow base branchName := by
  rw [StaysBelow]
  split
  next absolute =>
    have replaced : join base branchName = branchName := by
      rw [join, absolute, Bool.true_or, if_pos rfl]
    have atRoot : (Place.resolve branchName).absolute = true := by
      rw [Place.absolute_resolve, absolute]
    have noUps := Place.ups_resolve_of_absolute absolute
    rw [replaced, Place.StrictlyInside]
    constructor
    · intro inside
      rcases inside with ⟨between, some, sameRoot, -, trail⟩
      exact ⟨sameRoot ▸ atRoot, between, some, trail⟩
    · intro below
      rcases below with ⟨startsAtRoot, between, some, trail⟩
      have baseAbsolute : isAbsolute base = true := by
        rw [← Place.absolute_resolve, startsAtRoot]
      refine ⟨between, some, atRoot.trans startsAtRoot.symm, ?_, trail⟩
      rw [noUps, Place.ups_resolve_of_absolute baseAbsolute]
  next relative =>
    rw [Bool.not_eq_true] at relative
    rw [Place.resolve_join nonempty relative, Place.StrictlyInside]
    simp only [Place.extends_follow_iff]
    constructor
    · intro inside
      rcases inside with ⟨between, some, reach, trail⟩
      exact ⟨reach, between, some, trail⟩
    · intro below
      rcases below with ⟨reach, between, some, trail⟩
      exact ⟨between, some, reach, trail⟩

theorem baseDirectory_ne_nil (accepted : baseDirectory around request config = .ok base) :
    base ≠ [] := by
  rcases baseDirectory_eq_ok accepted with ⟨nonempty, configured | shared⟩
  · rcases configured with ⟨configured, -, relative, stays, rfl⟩
    exact join_ne_nil nonempty _ (isAbsolute_normalizePathStr relative stays)
  · rcases shared with ⟨-, found, workspaces, owned, home, rfl⟩
    rcases proper_of_resolveOwnerRepo owned with ⟨properOwner, properRepo⟩
    apply join_ne_nil _ _ proper_worktrees.isAbsolute_eq_false
    apply join_ne_nil _ _ properRepo.isAbsolute_eq_false
    exact join_ne_nil (getArchonWorkspacesPath_eq_ok home).1 _ properOwner.isAbsolute_eq_false

theorem baseDirectory_of_leaving (around : Surroundings)
    (set : configuredPath config = some configured)
    (leaves : ¬(Place.resolve (join request.base.canonicalRepoPath configured)).Inside
      (Place.resolve request.base.canonicalRepoPath)) :
    ∃ error, baseDirectory around request config = .error error := by
  cases accepted : baseDirectory around request config with
  | error error => exact ⟨error, rfl⟩
  | ok base =>
      rcases baseDirectory_eq_ok accepted with ⟨nonempty, ⟨other, set', relative, stays, -⟩ | shared⟩
      · rw [set] at set'
        cases set'
        rw [Place.resolve_join nonempty relative] at leaves
        exact absurd (Place.inside_follow_of_ups_eq_zero _ stays) leaves
      · rw [set] at shared
        cases shared.1

/-- The path of a worktree lies strictly below the base, the base in the directory
that it belongs in, and an override that leaves the repository is an error. -/
def Confined (around : Surroundings) (shortHash : List Char → List Char)
    (request : IsolationRequest) (config : Option WorktreeCreateConfig) : Prop :=
  let branchName := generateBranchName shortHash request
  let repoPath := request.base.canonicalRepoPath
  (∀ path, getWorktreePath around request branchName config = .ok path →
    ∃ base, baseDirectory around request config = .ok base ∧
      (Place.resolve path).StrictlyInside (Place.resolve base) ∧
      ∀ root, rootDirectory around request config = .ok root →
        (Place.resolve base).Inside (Place.resolve root)) ∧
    ∀ configured, configuredPath config = some configured →
      ¬(Place.resolve (join repoPath configured)).Inside (Place.resolve repoPath) →
      ∃ error, getWorktreePath around request branchName config = .error error

end WorktreeProvider

open WorktreeProvider

theorem getWorktreePath_confined_iff (around : Surroundings)
    (shortHash : List Char → List Char) (request : IsolationRequest)
    (config : Option WorktreeCreateConfig) :
    Confined around shortHash request config ↔
      ∀ base, baseDirectory around request config = .ok base →
        StaysBelow base (generateBranchName shortHash request) ∧
          KeepsOwner around request config := by
  constructor
  · intro confined base accepted
    have path : getWorktreePath around request (generateBranchName shortHash request) config =
        .ok (join base (generateBranchName shortHash request)) := by
      rw [getWorktreePath, accepted]
      rfl
    rcases confined.1 _ path with ⟨base', accepted', below, inside⟩
    rw [accepted] at accepted'
    cases accepted'
    exact ⟨(strictlyInside_join_iff (baseDirectory_ne_nil accepted) _).mp below,
      (inside_rootDirectory_iff accepted).mp inside⟩
  · intro condition
    constructor
    · intro path returned
      rw [getWorktreePath] at returned
      cases accepted : baseDirectory around request config with
      | error error =>
          rw [accepted] at returned
          cases returned
      | ok base =>
          rw [accepted] at returned
          cases returned
          rcases condition base accepted with ⟨below, keeps⟩
          exact ⟨base, rfl, (strictlyInside_join_iff (baseDirectory_ne_nil accepted) _).mpr below,
            (inside_rootDirectory_iff accepted).mpr keeps⟩
    · intro configured set leaves
      rcases baseDirectory_of_leaving around set leaves with ⟨error, refused⟩
      refine ⟨error, ?_⟩
      rw [getWorktreePath, refused]
      rfl

theorem getWorktreePath_confined_climbing :
    ¬∀ (around : Surroundings) (shortHash : List Char → List Char) (request : IsolationRequest)
      (config : Option WorktreeCreateConfig), Confined around shortHash request config := by
  intro always
  have confined := always
    { canonicalize := fun _ => none, archonHome := .ok "/home/me/.archon".toList } id
    (.issue { codebaseName := some "../..".toList, canonicalRepoPath := "/srv/app".toList }
      "7".toList) none
  rcases confined.1 "/home/me/.archon/workspaces/../../worktrees/archon/issue-7".toList
    (by decide) with ⟨base, accepted, -, inside⟩
  have keeps := (inside_rootDirectory_iff accepted).mp inside rfl
    ("..".toList, "..".toList) (by decide)
  exact absurd (keeps.1 rfl) (by decide)

end HarnessAgent
