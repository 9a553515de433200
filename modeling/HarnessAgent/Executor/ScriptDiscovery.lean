import HarnessAgent.Foundation.InsertionMap
import HarnessAgent.Foundation.Utf8Lossy
import HarnessAgent.Schema.DagNode

/-! # Discovery of scripts

Scripts are the files of a directory and of the directories in it, by their names without the
extension. A directory is scanned in the order in which the file system lists it, and the
scripts of the repository go over those of the home.
-/

namespace HarnessAgent

namespace ScriptDiscovery

open InsertionMap Text

/-! ## The file system -/

/-- A text of the operating system, which need not be UTF-8. -/
abbrev OsString := List UInt8

def slash : UInt8 := 0x2F

def join (directory name : OsString) : OsString :=
  if directory.isEmpty || directory.getLast? = some slash then directory ++ name
  else directory ++ slash :: name

def toStringLossy (path : OsString) : String :=
  String.ofList (fromUtf8Lossy path)

structure IoError where
  rawOsError : Option Nat
  message : String
  deriving DecidableEq, Repr

def IoError.isNotFound (error : IoError) : Bool :=
  error.rawOsError = some 2

inductive FileKind
  | directory
  | other
  deriving DecidableEq, Repr

/-- The names in a directory in the order of the listing, and what a path leads to. An entry
without metadata cannot be looked at. -/
structure FileSystem where
  readDir : OsString → Except IoError (List OsString)
  metadata : OsString → Option FileKind

/-! ## Names and runtimes -/

/-- The stem and the extension: what stands before and behind the last dot, unless it is the
first character. -/
def splitFileName (fileName : List Char) : List Char × Option (List Char) :=
  let after := (fileName.reverse.takeWhile (· ≠ '.')).reverse
  let before := fileName.take (fileName.length - after.length - 1)
  if fileName = "..".toList || !fileName.contains '.' || before.isEmpty then (fileName, none)
  else (before, some after)

def getRuntimeForExtension (extension : List Char) : Option ScriptRuntime :=
  if extension = ".ts".toList || extension = ".js".toList then some .bun
  else if extension = ".py".toList then some .uv
  else none

structure ScriptDefinition where
  name : String
  path : String
  runtime : ScriptRuntime
  deriving DecidableEq, Repr

abbrev ScriptMap := InsertionMap String ScriptDefinition

inductive ScriptDiscoveryError
  | dirReadError (message code : String)
  | duplicateScriptName (name existing new : String)
  | pathError (message : String)
  deriving DecidableEq, Repr

def normalizeSep (path : String) : String :=
  path.map fun character => if character = '\\' then '/' else character

def nodeReaddirError (error : IoError) (dirPath : OsString) : String × String :=
  let mapped : Option (String × String) :=
    match error.rawOsError with
    | some 1 => some ("EPERM", "operation not permitted")
    | some 2 => some ("ENOENT", "no such file or directory")
    | some 13 => some ("EACCES", "permission denied")
    | some 20 => some ("ENOTDIR", "not a directory")
    | some 23 => some ("ENFILE", "file table overflow")
    | some 24 => some ("EMFILE", "too many open files")
    | some 36 => some ("ENAMETOOLONG", "name too long")
    | some 40 => some ("ELOOP", "too many symbolic links encountered")
    | _ => none
  match mapped with
  | some (code, description) =>
      (code ++ ": " ++ description ++ ", scandir '" ++ toStringLossy dirPath ++ "'", code)
  | none => (error.message, "unknown")

def readError (error : IoError) (dirPath : OsString) : ScriptDiscoveryError :=
  let (message, code) := nodeReaddirError error dirPath
  .dirReadError message code

def scriptOf (entryPath fileName : OsString) : Option ScriptDefinition :=
  (fromUtf8 fileName).bind fun text =>
    let (stem, extension) := splitFileName text
    (extension.bind fun extension => getRuntimeForExtension ('.' :: extension)).map fun runtime =>
      { name := String.ofList stem
        path := normalizeSep (toStringLossy entryPath)
        runtime := runtime }

/-! ## Scanning -/

def maxScriptDiscoveryDepth : Nat := 1

variable (files : FileSystem)

def addScript (scripts : ScriptMap) (definition : ScriptDefinition) :
    Except ScriptDiscoveryError ScriptMap :=
  match scripts.get definition.name with
  | some existing => .error (.duplicateScriptName definition.name existing.path definition.path)
  | none => .ok (scripts.insert definition.name definition)

def scanEntries (descend : OsString → ScriptMap → Except ScriptDiscoveryError ScriptMap)
    (dirPath : OsString) (scripts : ScriptMap) : Except ScriptDiscoveryError ScriptMap :=
  match files.readDir dirPath with
  | .error error => if error.isNotFound then .ok scripts else .error (readError error dirPath)
  | .ok names =>
      names.foldlM (fun scripts name =>
        let entryPath := join dirPath name
        match files.metadata entryPath with
        | none => .ok scripts
        | some .directory => descend entryPath scripts
        | some .other =>
            match scriptOf entryPath name with
            | none => .ok scripts
            | some definition => addScript scripts definition) scripts

/-- A scan that may descend by so many levels; at the last one directories are skipped. -/
def scanScriptDir : (levels : Nat) → OsString → ScriptMap →
    Except ScriptDiscoveryError ScriptMap
  | 0 => scanEntries files fun _ scripts => .ok scripts
  | levels + 1 => scanEntries files (scanScriptDir levels)

def discoverScripts (dir : OsString) : Except ScriptDiscoveryError ScriptMap :=
  scanScriptDir files maxScriptDiscoveryDepth dir .empty

def repoScriptsPath (cwd : OsString) : OsString :=
  join (join cwd (utf8 ".archon".toList)) (utf8 "scripts".toList)

def discoverScriptsForCwd (homeScriptsPath : Except String OsString) (cwd : OsString) :
    Except ScriptDiscoveryError ScriptMap := do
  let homeScriptsPath ← homeScriptsPath.mapError .pathError
  let homeScripts ← discoverScripts files homeScriptsPath
  let repoScripts ← discoverScripts files (repoScriptsPath cwd)
  return homeScripts.insertAll repoScripts.entries

/-! ## What a scan comes upon -/

def duplicate (name : String) (existing new : ScriptDefinition) : ScriptDiscoveryError :=
  .duplicateScriptName name existing.path new.path

/-- A file with the name of a script, or a directory that cannot be read. -/
abbrev Visit := Except ScriptDiscoveryError (String × ScriptDefinition)

def visitsOf (descend : OsString → List Visit) (dirPath : OsString) : List Visit :=
  match files.readDir dirPath with
  | .error error => if error.isNotFound then [] else [.error (readError error dirPath)]
  | .ok names =>
      names.flatMap fun name =>
        let entryPath := join dirPath name
        match files.metadata entryPath with
        | none => []
        | some .directory => descend entryPath
        | some .other =>
            (scriptOf entryPath name).toList.map fun definition =>
              .ok (definition.name, definition)

def visits : (levels : Nat) → OsString → List Visit
  | 0 => visitsOf files fun _ => []
  | levels + 1 => visitsOf files (visits levels)

variable {files}

theorem addScript_eq (scripts : ScriptMap) (definition : ScriptDefinition) :
    addScript scripts definition =
      collect duplicate scripts [.ok (definition.name, definition)] := by
  rw [addScript]
  cases found : scripts.get definition.name with
  | some existing =>
      rw [collect_known_cons found]
      rfl
  | none =>
      rw [collect_new_cons found]
      rfl

theorem foldlM_eq_collect
    (steps : ∀ scripts name, step scripts name = collect duplicate scripts (visitsAt name))
    (names : List OsString) (scripts : ScriptMap) :
    names.foldlM step scripts = collect duplicate scripts (names.flatMap visitsAt) := by
  induction names generalizing scripts with
  | nil => rfl
  | cons name rest induction =>
      rw [List.foldlM_cons, List.flatMap_cons, collect_append, steps]
      cases collect duplicate scripts (visitsAt name) with
      | error error => rfl
      | ok left => exact induction left

variable {visitsBelow : OsString → List Visit}

theorem scanEntries_eq
    (descends : ∀ path scripts, descend path scripts = collect duplicate scripts (visitsBelow path))
    (dirPath : OsString) (scripts : ScriptMap) :
    scanEntries files descend dirPath scripts =
      collect duplicate scripts (visitsOf files visitsBelow dirPath) := by
  rw [scanEntries, visitsOf]
  cases files.readDir dirPath with
  | error error =>
      dsimp only
      split
      · rfl
      · rw [collect_error_cons]
  | ok names =>
      apply foldlM_eq_collect
      intro scripts name
      dsimp only
      cases files.metadata (join dirPath name) with
      | none => rfl
      | some kind =>
          cases kind with
          | directory => exact descends _ _
          | other =>
              dsimp only
              cases scriptOf (join dirPath name) name with
              | none => rfl
              | some definition => exact addScript_eq scripts definition

theorem scanScriptDir_eq (levels : Nat) (dirPath : OsString) (scripts : ScriptMap) :
    scanScriptDir files levels dirPath scripts =
      collect duplicate scripts (visits files levels dirPath) := by
  induction levels generalizing dirPath scripts with
  | zero =>
      rw [scanScriptDir, visits]
      apply scanEntries_eq
      intro path scripts
      rfl
  | succ levels induction => exact scanEntries_eq induction dirPath scripts

/-! ## Other listings -/

inductive Relisting : Except IoError (List OsString) → Except IoError (List OsString) → Prop
  | error (error : IoError) : Relisting (.error error) (.error error)
  | names {left right : List OsString} (same : left.Perm right) :
      Relisting (.ok left) (.ok right)

/-- Two file systems with the same content, which may list directories in different orders. -/
structure SameContent (left right : FileSystem) : Prop where
  metadata : left.metadata = right.metadata
  readDir : ∀ path, Relisting (left.readDir path) (right.readDir path)

variable {left right : FileSystem}

theorem visitsOf_perm (same : SameContent left right)
    (below : ∀ path, (leftBelow path).Perm (rightBelow path)) (dirPath : OsString) :
    (visitsOf left leftBelow dirPath).Perm (visitsOf right rightBelow dirPath) := by
  have listing := same.readDir dirPath
  rw [visitsOf, visitsOf, same.metadata]
  cases onLeft : left.readDir dirPath with
  | error error =>
      rw [onLeft] at listing
      cases onRight : right.readDir dirPath with
      | error other =>
          rw [onRight] at listing
          cases listing
          exact List.Perm.refl _
      | ok names =>
          rw [onRight] at listing
          cases listing
  | ok names =>
      rw [onLeft] at listing
      cases onRight : right.readDir dirPath with
      | error other =>
          rw [onRight] at listing
          cases listing
      | ok others =>
          rw [onRight] at listing
          cases listing with
          | names permuted =>
              apply permuted.flatMap
              intro name _
              dsimp only
              cases right.metadata (join dirPath name) with
              | none => exact List.Perm.refl _
              | some kind =>
                  cases kind with
                  | directory => exact below _
                  | other => exact List.Perm.refl _

theorem visits_perm (same : SameContent left right) (levels : Nat) (dirPath : OsString) :
    (visits left levels dirPath).Perm (visits right levels dirPath) := by
  induction levels generalizing dirPath with
  | zero => exact visitsOf_perm same (fun _ => List.Perm.refl _) dirPath
  | succ levels induction => exact visitsOf_perm same induction dirPath

/-- The order of the listings decides neither whether a scan fails nor what is found. -/
theorem discoverScripts_agree (same : SameContent left right) (dir : OsString) :
    Agree (discoverScripts left dir) (discoverScripts right dir) := by
  rw [discoverScripts, discoverScripts, scanScriptDir_eq, scanScriptDir_eq]
  exact collect_agree_of_perm _ (visits_perm same _ dir)

/-! ## Files and failures of a scope -/

section Scope

variable (files)

def scriptFilesOf (descend : OsString → List ScriptDefinition) (dirPath : OsString) :
    List ScriptDefinition :=
  match files.readDir dirPath with
  | .error _ => []
  | .ok names =>
      names.flatMap fun name =>
        let entryPath := join dirPath name
        match files.metadata entryPath with
        | none => []
        | some .directory => descend entryPath
        | some .other => (scriptOf entryPath name).toList

def scriptFiles : (levels : Nat) → OsString → List ScriptDefinition
  | 0 => scriptFilesOf files fun _ => []
  | levels + 1 => scriptFilesOf files (scriptFiles levels)

inductive Unreadable : (levels : Nat) → OsString → Prop
  | here {levels : Nat} {dirPath : OsString} {error : IoError}
      (fails : files.readDir dirPath = .error error) (there : error.isNotFound = false) :
      Unreadable levels dirPath
  | inside {levels : Nat} {dirPath name : OsString} {names : List OsString}
      (lists : files.readDir dirPath = .ok names) (member : name ∈ names)
      (directory : files.metadata (join dirPath name) = some .directory)
      (unreadable : Unreadable levels (join dirPath name)) : Unreadable (levels + 1) dirPath

def ShareStem (dir : OsString) : Prop :=
  ¬((scriptFiles files maxScriptDiscoveryDepth dir).map ScriptDefinition.name).Nodup

def fileNamed (dir : OsString) (name : String) : Option ScriptDefinition :=
  (scriptFiles files maxScriptDiscoveryDepth dir).find? fun definition => definition.name = name

variable {files}

theorem visited_append (front back : List Visit) :
    visited (front ++ back) = visited front ++ visited back :=
  List.filterMap_append

theorem visited_flatMap (visitsAt : OsString → List Visit) (names : List OsString) :
    visited (names.flatMap visitsAt) = names.flatMap fun name => visited (visitsAt name) := by
  induction names with
  | nil => rfl
  | cons name rest induction =>
      rw [List.flatMap_cons, List.flatMap_cons, visited_append, induction]

def ScriptDefinition.entry (definition : ScriptDefinition) : String × ScriptDefinition :=
  (definition.name, definition)

theorem visited_visitsOf
    (below : ∀ path, visited (visitsBelow path) = (filesBelow path).map ScriptDefinition.entry)
    (dirPath : OsString) :
    visited (visitsOf files visitsBelow dirPath) =
      (scriptFilesOf files filesBelow dirPath).map ScriptDefinition.entry := by
  rw [visitsOf, scriptFilesOf]
  cases files.readDir dirPath with
  | error error =>
      dsimp only
      split
      · rfl
      · rfl
  | ok names =>
      dsimp only
      rw [visited_flatMap, List.map_flatMap]
      apply List.flatMap_congr
      intro name _
      cases files.metadata (join dirPath name) with
      | none => rfl
      | some kind =>
          cases kind with
          | directory => exact below _
          | other =>
              dsimp only
              cases scriptOf (join dirPath name) name with
              | none => rfl
              | some definition => rfl

theorem visited_visits (levels : Nat) (dirPath : OsString) :
    visited (visits files levels dirPath) =
      (scriptFiles files levels dirPath).map ScriptDefinition.entry := by
  induction levels generalizing dirPath with
  | zero => exact visited_visitsOf (fun _ => rfl) dirPath
  | succ levels induction => exact visited_visitsOf induction dirPath

variable {dirPath : OsString} {error : ScriptDiscoveryError}

theorem error_mem_visitsOf_iff :
    .error error ∈ visitsOf files visitsBelow dirPath ↔
      (∃ failure, files.readDir dirPath = .error failure ∧ failure.isNotFound = false ∧
        error = readError failure dirPath) ∨
      ∃ names name, files.readDir dirPath = .ok names ∧ name ∈ names ∧
        files.metadata (join dirPath name) = some .directory ∧
        .error error ∈ visitsBelow (join dirPath name) := by
  rw [visitsOf]
  cases files.readDir dirPath with
  | error failure => cases there : failure.isNotFound <;> simp [there]
  | ok names =>
      rw [List.mem_flatMap]
      constructor
      · intro found
        rcases found with ⟨name, member, inEntry⟩
        dsimp only at inEntry
        refine .inr ⟨names, name, rfl, member, ?_⟩
        cases kind : files.metadata (join dirPath name) with
        | none =>
            rw [kind] at inEntry
            cases inEntry
        | some kindOf =>
            rw [kind] at inEntry
            cases kindOf with
            | directory => exact ⟨rfl, inEntry⟩
            | other =>
                rcases List.mem_map.mp inEntry with ⟨definition, -, equal⟩
                cases equal
      · intro found
        rcases found with here | inside
        · rcases here with ⟨failure, fails, -⟩
          cases fails
        · rcases inside with ⟨others, name, same, member, directory, inside⟩
          cases same
          refine ⟨name, member, ?_⟩
          dsimp only
          rw [directory]
          exact inside

/-- The errors that a scan comes upon are those of reading a directory. -/
theorem of_error_mem_visits (member : .error error ∈ visits files levels dirPath) :
    Unreadable files levels dirPath ∧ ∃ message code, error = .dirReadError message code := by
  induction levels generalizing dirPath with
  | zero =>
      rcases error_mem_visitsOf_iff.mp member with here | inside
      · rcases here with ⟨failure, fails, there, rfl⟩
        exact ⟨.here fails there, _, _, rfl⟩
      · rcases inside with ⟨names, name, -, -, -, none⟩
        cases none
  | succ levels induction =>
      rcases error_mem_visitsOf_iff.mp member with here | inside
      · rcases here with ⟨failure, fails, there, rfl⟩
        exact ⟨.here fails there, _, _, rfl⟩
      · rcases inside with ⟨names, name, lists, listed, directory, found⟩
        rcases induction found with ⟨unreadable, isRead⟩
        exact ⟨.inside lists listed directory unreadable, isRead⟩

theorem exists_error_of_unreadable (unreadable : Unreadable files levels dirPath) :
    ∃ error, .error error ∈ visits files levels dirPath := by
  induction unreadable with
  | @here levels dirPath failure fails there =>
      have found : .error (readError failure dirPath) ∈ visits files levels dirPath := by
        cases levels with
        | zero => exact error_mem_visitsOf_iff.mpr (.inl ⟨failure, fails, there, rfl⟩)
        | succ levels => exact error_mem_visitsOf_iff.mpr (.inl ⟨failure, fails, there, rfl⟩)
      exact ⟨_, found⟩
  | inside lists member directory _ induction =>
      rcases induction with ⟨error, found⟩
      exact ⟨error, error_mem_visitsOf_iff.mpr (.inr ⟨_, _, lists, member, directory, found⟩)⟩

variable {dir : OsString}

theorem discoverScripts_eq_ok_iff {scripts : ScriptMap} :
    discoverScripts files dir = .ok scripts ↔
      ¬Unreadable files maxScriptDiscoveryDepth dir ∧ ¬ShareStem files dir ∧
        scripts = insertAll .empty ((scriptFiles files maxScriptDiscoveryDepth dir).map
          ScriptDefinition.entry) := by
  rw [discoverScripts, scanScriptDir_eq, collect_eq_ok_iff, visited_visits, ShareStem, not_not,
    Apart, visited_visits, List.map_map]
  have names : (Prod.fst ∘ ScriptDefinition.entry) = ScriptDefinition.name := rfl
  rw [names]
  have readable : (∀ error, .error error ∉ visits files maxScriptDiscoveryDepth dir) ↔
      ¬Unreadable files maxScriptDiscoveryDepth dir := by
    constructor
    · intro fine unreadable
      rcases exists_error_of_unreadable unreadable with ⟨error, member⟩
      exact fine error member
    · intro fine error member
      exact fine (of_error_mem_visits member).1
  rw [readable]
  rfl

theorem discoverScripts_eq_error (failed : discoverScripts files dir = .error error) :
    (Unreadable files maxScriptDiscoveryDepth dir ∧
        ∃ message code, error = .dirReadError message code) ∨
      (ShareStem files dir ∧
        ∃ name existing new, error = .duplicateScriptName name existing new) := by
  rw [discoverScripts, scanScriptDir_eq] at failed
  rcases collect_eq_error failed with member | twice
  · exact .inl (of_error_mem_visits member)
  · rcases twice with ⟨notApart, name, existing, new, rfl⟩
    refine .inr ⟨?_, name, _, _, rfl⟩
    rw [Apart, visited_visits, List.map_map] at notApart
    exact notApart

theorem lookup_map_entry (definitions : List ScriptDefinition) (name : String) :
    (definitions.map ScriptDefinition.entry).lookup name =
      definitions.find? fun definition => definition.name = name := by
  induction definitions with
  | nil => rfl
  | cons definition rest induction =>
      rw [List.map_cons, ScriptDefinition.entry, lookup_cons, induction, List.find?_cons]
      by_cases same : name = definition.name
      · rw [if_pos same, decide_eq_true same.symm]
      · rw [if_neg same, decide_eq_false fun equal => same equal.symm]

theorem get_discoverScripts (discovered : discoverScripts files dir = .ok scripts) (name : String) :
    scripts.get name = fileNamed files dir name := by
  rcases discoverScripts_eq_ok_iff.mp discovered with ⟨-, distinct, rfl⟩
  rw [ShareStem, not_not] at distinct
  have keys : (((scriptFiles files maxScriptDiscoveryDepth dir).map
      ScriptDefinition.entry).map Prod.fst).Nodup := by
    rw [List.map_map]
    exact distinct
  rw [get_insertAll _ keys, get_empty, Option.or_none, fileNamed]
  exact lookup_map_entry _ name

end Scope

/-! ## Both scopes -/

section Scopes

variable {files : FileSystem} {home cwd : OsString}

def FailsOnNames (result : Except ScriptDiscoveryError ScriptMap) : Prop :=
  ∃ name existing new, result = .error (.duplicateScriptName name existing new)

def Spoilt (files : FileSystem) (dir : OsString) : Prop :=
  Unreadable files maxScriptDiscoveryDepth dir ∨ ShareStem files dir

theorem discoverScripts_fails_iff {dir : OsString} :
    (∃ error, discoverScripts files dir = .error error) ↔ Spoilt files dir := by
  constructor
  · intro failed
    rcases failed with ⟨error, failed⟩
    exact (discoverScripts_eq_error failed).imp And.left And.left
  · intro spoilt
    cases discovered : discoverScripts files dir with
    | error error => exact ⟨error, rfl⟩
    | ok scripts =>
        rcases discoverScripts_eq_ok_iff.mp discovered with ⟨readable, distinct, -⟩
        exact absurd spoilt (not_or.mpr ⟨readable, distinct⟩)

theorem discoverScriptsForCwd_ok (files : FileSystem) (home cwd : OsString) :
    discoverScriptsForCwd files (.ok home) cwd =
      discoverScripts files home >>= fun homeScripts =>
        (discoverScripts files (repoScriptsPath cwd)).map fun repoScripts =>
          homeScripts.insertAll repoScripts.entries := by
  rw [discoverScriptsForCwd]
  change (discoverScripts files home >>= fun homeScripts =>
    discoverScripts files (repoScriptsPath cwd) >>= fun repoScripts =>
      pure (homeScripts.insertAll repoScripts.entries)) = _
  cases discoverScripts files home with
  | error error => rfl
  | ok homeScripts =>
      cases discoverScripts files (repoScriptsPath cwd) with
      | error error => rfl
      | ok repoScripts => rfl

theorem discoverScriptsForCwd_eq_error {error : ScriptDiscoveryError} :
    discoverScriptsForCwd files (.ok home) cwd = .error error ↔
      discoverScripts files home = .error error ∨
        ((∃ scripts, discoverScripts files home = .ok scripts) ∧
          discoverScripts files (repoScriptsPath cwd) = .error error) := by
  rw [discoverScriptsForCwd_ok]
  cases discoverScripts files home with
  | error other => simp [bind, Except.bind]
  | ok homeScripts =>
      cases discoverScripts files (repoScriptsPath cwd) with
      | error other => simp [bind, Except.bind, Except.map]
      | ok repoScripts => simp [bind, Except.bind, Except.map]

theorem discoverScriptsForCwd_eq_ok {scripts : ScriptMap} :
    discoverScriptsForCwd files (.ok home) cwd = .ok scripts ↔
      ∃ homeScripts repoScripts, discoverScripts files home = .ok homeScripts ∧
        discoverScripts files (repoScriptsPath cwd) = .ok repoScripts ∧
        scripts = homeScripts.insertAll repoScripts.entries := by
  rw [discoverScriptsForCwd_ok]
  cases discoverScripts files home with
  | error other => simp [bind, Except.bind]
  | ok homeScripts =>
      cases discoverScripts files (repoScriptsPath cwd) with
      | error other => simp [bind, Except.bind, Except.map]
      | ok repoScripts => simp [bind, Except.bind, Except.map, eq_comm]

theorem discoverScriptsForCwd_fails_iff :
    (∃ error, discoverScriptsForCwd files (.ok home) cwd = .error error) ↔
      Spoilt files home ∨ Spoilt files (repoScriptsPath cwd) := by
  simp only [discoverScriptsForCwd_eq_error, ← discoverScripts_fails_iff]
  cases discoverScripts files home with
  | error error => simp
  | ok homeScripts => simp

theorem shareStem_of_failsOnNames
    (fails : FailsOnNames (discoverScriptsForCwd files (.ok home) cwd)) :
    ShareStem files home ∨ ShareStem files (repoScriptsPath cwd) := by
  have onNames : ∀ dir name existing new, discoverScripts files dir =
      .error (.duplicateScriptName name existing new) → ShareStem files dir := by
    intro dir name existing new failed
    rcases discoverScripts_eq_error failed with unread | twice
    · rcases unread with ⟨-, message, code, other⟩
      cases other
    · exact twice.1
  rcases fails with ⟨name, existing, new, failed⟩
  rcases discoverScriptsForCwd_eq_error.mp failed with inHome | inRepo
  · exact .inl (onNames _ _ _ _ inHome)
  · exact .inr (onNames _ _ _ _ inRepo.2)

theorem failsOnNames_of_shareStem (homeRead : ¬Unreadable files maxScriptDiscoveryDepth home)
    (repoRead : ¬Unreadable files maxScriptDiscoveryDepth (repoScriptsPath cwd))
    (shares : ShareStem files home ∨ ShareStem files (repoScriptsPath cwd)) :
    FailsOnNames (discoverScriptsForCwd files (.ok home) cwd) := by
  rcases discoverScriptsForCwd_fails_iff.mpr (shares.imp .inr .inr) with ⟨error, failed⟩
  rcases discoverScriptsForCwd_eq_error.mp failed with inHome | inRepo
  · rcases (discoverScripts_eq_error inHome).resolve_left fun both => homeRead both.1 with
      ⟨-, name, existing, new, rfl⟩
    exact ⟨name, existing, new, failed⟩
  · rcases (discoverScripts_eq_error inRepo.2).resolve_left fun both => repoRead both.1 with
      ⟨-, name, existing, new, rfl⟩
    exact ⟨name, existing, new, failed⟩

theorem get_discoverScriptsForCwd
    (discovered : discoverScriptsForCwd files (.ok home) cwd = .ok scripts) (name : String) :
    scripts.get name =
      (fileNamed files (repoScriptsPath cwd) name).or (fileNamed files home name) := by
  rcases discoverScriptsForCwd_eq_ok.mp discovered with
    ⟨homeScripts, repoScripts, inHome, inRepo, rfl⟩
  rw [get_insertAll _ repoScripts.distinct, get_discoverScripts inHome,
    ← get_discoverScripts inRepo]
  rfl

theorem discoverScriptsForCwd_agree (same : SameContent left right)
    (homeScriptsPath : Except String OsString) (cwd : OsString) :
    Agree (discoverScriptsForCwd left homeScriptsPath cwd)
      (discoverScriptsForCwd right homeScriptsPath cwd) := by
  cases homeScriptsPath with
  | error message => exact trivial
  | ok home =>
      rw [discoverScriptsForCwd, discoverScriptsForCwd]
      apply (discoverScripts_agree same home).bind
      intro leftScripts rightScripts base
      apply (discoverScripts_agree same (repoScriptsPath cwd)).bind
      intro leftOver rightOver overlay name
      have onTop := overlay name
      change (leftScripts.insertAll leftOver.entries).get name =
        (rightScripts.insertAll rightOver.entries).get name
      rw [get_insertAll _ leftOver.distinct, get_insertAll _ rightOver.distinct, base name]
      rw [InsertionMap.get, InsertionMap.get] at onTop
      rw [onTop]

/-- The order of the listings does not matter, names fail where two files of a scope share a
stem, and a name leads to the file of the repository if there is one. -/
theorem discoverScriptsForCwd_determined {left right : FileSystem}
    (same : SameContent left right) (homeScriptsPath : Except String OsString) (cwd : OsString) :
    Agree (discoverScriptsForCwd left homeScriptsPath cwd)
        (discoverScriptsForCwd right homeScriptsPath cwd) ∧
      ∀ home, homeScriptsPath = .ok home →
        ((∃ error, discoverScriptsForCwd left homeScriptsPath cwd = .error error) ↔
          Spoilt left home ∨ Spoilt left (repoScriptsPath cwd)) ∧
        (FailsOnNames (discoverScriptsForCwd left homeScriptsPath cwd) →
          ShareStem left home ∨ ShareStem left (repoScriptsPath cwd)) ∧
        (¬Unreadable left maxScriptDiscoveryDepth home →
          ¬Unreadable left maxScriptDiscoveryDepth (repoScriptsPath cwd) →
          ShareStem left home ∨ ShareStem left (repoScriptsPath cwd) →
          FailsOnNames (discoverScriptsForCwd left homeScriptsPath cwd)) ∧
        ∀ scripts, discoverScriptsForCwd left homeScriptsPath cwd = .ok scripts →
          ∀ name, scripts.get name =
            (fileNamed left (repoScriptsPath cwd) name).or (fileNamed left home name) := by
  refine ⟨discoverScriptsForCwd_agree same homeScriptsPath cwd, ?_⟩
  intro home resolved
  subst resolved
  exact ⟨discoverScriptsForCwd_fails_iff, shareStem_of_failsOnNames, failsOnNames_of_shareStem,
    fun scripts discovered => get_discoverScriptsForCwd discovered⟩

end Scopes

/-! ## A locked directory among scripts of one stem -/

section Locked

def homeScripts : OsString := utf8 "scripts".toList

def locked : OsString := utf8 "locked".toList

def twins : List OsString := [utf8 "sync.py".toList, utf8 "sync.ts".toList]

def homeListing (names : List OsString) : FileSystem where
  readDir path :=
    if path = homeScripts then .ok names
    else if path = join homeScripts locked then .error ⟨some 13, "Permission denied"⟩
    else .error ⟨some 2, "No such file or directory"⟩
  metadata path :=
    if path = join homeScripts locked then some .directory else some .other

theorem sameContent_homeListing {left right : List OsString} (same : left.Perm right) :
    SameContent (homeListing left) (homeListing right) where
  metadata := rfl
  readDir path := by
    rw [homeListing, homeListing]
    dsimp only
    split
    · exact .names same
    · split
      · exact .error _
      · exact .error _

theorem discoverScriptsForCwd_determined_locked :
    Agree (discoverScriptsForCwd (homeListing (locked :: twins)) (.ok homeScripts) [])
      (discoverScriptsForCwd (homeListing (twins ++ [locked])) (.ok homeScripts) []) :=
  (discoverScriptsForCwd_determined (sameContent_homeListing
    (@List.perm_append_comm _ [locked] twins)) (.ok homeScripts) []).1

theorem scriptOf_twin_py (path : OsString) :
    scriptOf path (utf8 "sync.py".toList) =
      some ⟨"sync", normalizeSep (toStringLossy path), .uv⟩ := by
  rw [scriptOf, fromUtf8_utf8]
  rfl

theorem scriptOf_twin_ts (path : OsString) :
    scriptOf path (utf8 "sync.ts".toList) =
      some ⟨"sync", normalizeSep (toStringLossy path), .bun⟩ := by
  rw [scriptOf, fromUtf8_utf8]
  rfl

def readingLocked : ScriptDiscoveryError :=
  readError ⟨some 13, "Permission denied"⟩ (join homeScripts locked)

def twin (name : OsString) (runtime : ScriptRuntime) : String × ScriptDefinition :=
  ("sync", ⟨"sync", normalizeSep (toStringLossy (join homeScripts name)), runtime⟩)

def homeVisit (name : OsString) : List Visit :=
  if name = locked then [.error readingLocked]
  else (scriptOf (join homeScripts name) name).toList.map fun definition =>
    .ok (definition.name, definition)

theorem homeVisit_twins : twins.flatMap homeVisit =
    [.ok (twin (utf8 "sync.py".toList) .uv), .ok (twin (utf8 "sync.ts".toList) .bun)] := by
  have py : homeVisit (utf8 "sync.py".toList) = [.ok (twin (utf8 "sync.py".toList) .uv)] := by
    rw [homeVisit, if_neg (by decide +kernel), scriptOf_twin_py]
    rfl
  have ts : homeVisit (utf8 "sync.ts".toList) = [.ok (twin (utf8 "sync.ts".toList) .bun)] := by
    rw [homeVisit, if_neg (by decide +kernel), scriptOf_twin_ts]
    rfl
  rw [twins, List.flatMap_cons, List.flatMap_singleton, py, ts]
  rfl

theorem visits_homeListing {names : List OsString} (known : ∀ name ∈ names, name ∈ locked :: twins) :
    visits (homeListing names) maxScriptDiscoveryDepth homeScripts = names.flatMap homeVisit := by
  have lists : (homeListing names).readDir homeScripts = .ok names := by
    rw [homeListing]
    dsimp only
    exact if_pos rfl
  have apart : ∀ name ∈ twins, join homeScripts name ≠ join homeScripts locked := by
    decide +kernel
  have refuses : (homeListing names).readDir (join homeScripts locked) =
      .error ⟨some 13, "Permission denied"⟩ := by
    rw [homeListing]
    dsimp only
    rw [if_neg (by decide +kernel), if_pos rfl]
  have inside : visits (homeListing names) 0 (join homeScripts locked) =
      [.error readingLocked] := by
    rw [visits, visitsOf, refuses]
    rfl
  rw [maxScriptDiscoveryDepth, visits, visitsOf, lists]
  apply List.flatMap_congr
  intro name member
  dsimp only
  rcases List.mem_cons.mp (known name member) with rfl | isTwin
  · have directory : (homeListing names).metadata (join homeScripts locked) =
        some .directory := by
      rw [homeListing]
      dsimp only
      exact if_pos rfl
    rw [directory, homeVisit, if_pos rfl]
    exact inside
  · have file : (homeListing names).metadata (join homeScripts name) = some .other :=
      if_neg (apart name isTwin)
    have other : name ≠ locked := fun same => apart name isTwin (same ▸ rfl)
    rw [file, homeVisit, if_neg other]

theorem locked_hides_twins :
    ShareStem (homeListing (locked :: twins)) homeScripts ∧
      ¬FailsOnNames (discoverScriptsForCwd (homeListing (locked :: twins)) (.ok homeScripts) []) ∧
      FailsOnNames (discoverScriptsForCwd (homeListing (twins ++ [locked])) (.ok homeScripts) [])
      := by
  have first := @visits_homeListing (locked :: twins) fun _ member => member
  have last := @visits_homeListing (twins ++ [locked]) fun _ member =>
    (@List.perm_append_comm _ twins [locked]).mem_iff.mp member
  have lockedVisit : homeVisit locked = [.error readingLocked] := if_pos rfl
  rw [List.flatMap_cons, homeVisit_twins, lockedVisit] at first
  rw [List.flatMap_append, homeVisit_twins] at last
  refine ⟨?_, ?_, ?_⟩
  · have entries := @visited_visits (homeListing (locked :: twins)) maxScriptDiscoveryDepth
      homeScripts
    rw [first] at entries
    have names := congrArg (List.map Prod.fst) entries
    rw [List.map_map] at names
    change _ = (scriptFiles _ _ _).map ScriptDefinition.name at names
    rw [ShareStem, ← names]
    decide
  · intro fails
    rcases fails with ⟨name, existing, new, failed⟩
    have discovered : discoverScripts (homeListing (locked :: twins)) homeScripts =
        .error readingLocked := by
      rw [discoverScripts, scanScriptDir_eq, first]
      exact collect_error_cons _ _ _
    rcases discoverScriptsForCwd_eq_error.mp failed with inHome | inRepo
    · rw [discovered] at inHome
      cases inHome
    · rw [discovered] at inRepo
      rcases inRepo.1 with ⟨scripts, none⟩
      cases none
  · have discovered : ∃ name existing new,
        discoverScripts (homeListing (twins ++ [locked])) homeScripts =
          .error (.duplicateScriptName name existing new) := by
      rw [discoverScripts, scanScriptDir_eq, last]
      exact ⟨"sync", _, _, rfl⟩
    rcases discovered with ⟨name, existing, new, failed⟩
    exact ⟨name, existing, new, discoverScriptsForCwd_eq_error.mpr (.inl failed)⟩

end Locked

end ScriptDiscovery

end HarnessAgent
