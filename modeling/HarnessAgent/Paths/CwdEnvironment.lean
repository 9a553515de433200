import HarnessAgent.Foundation.Text

/-! # The environment without that of the working directory

Before anything reads the environment, the variables that the env files of the working
directory define are taken out of it, and so are the marks that an enclosing session leaves.
-/

namespace HarnessAgent

inductive OsText
  | unicode (text : String)
  | other (bytes : List UInt8)
  deriving DecidableEq, Repr

abbrev ProcessEnvironment := List (OsText × OsText)

namespace ProcessEnvironment

def var (env : ProcessEnvironment) (name : String) : Option String :=
  match env.lookup (.unicode name) with
  | some (.unicode value) => some value
  | _ => none

def removeVar (env : ProcessEnvironment) (name : String) : ProcessEnvironment :=
  env.filter fun entry => entry.1 ≠ .unicode name

def vars : ProcessEnvironment → Option (List (String × String))
  | [] => some []
  | (.unicode name, .unicode value) :: rest => (vars rest).map ((name, value) :: ·)
  | _ :: _ => none

end ProcessEnvironment

namespace CwdEnvironment

open ProcessEnvironment

/-- What the parser reads from a line. A name without the characters that end one can be
removed from an environment. -/
structure Assignment where
  key : String
  value : String
  key_ok : key ≠ "" ∧ '=' ∉ key.toList ∧ '\x00' ∉ key.toList

inductive EnvFile
  | missing
  | unreadable (error : String)
  | lines (lines : List (Except String Assignment))

structure Directory where
  display : String
  file : String → EnvFile
  displayFile : String → String

def bunAutoLoadedEnvFiles : List String :=
  [".env", ".env.local", ".env.development", ".env.production"]

def claudeCodeAuthVars : List String :=
  ["CLAUDE_CODE_OAUTH_TOKEN", "CLAUDE_CODE_USE_BEDROCK", "CLAUDE_CODE_USE_VERTEX"]

def nestedClaudeWarning : String :=
  "⚠  Detected CLAUDECODE=1 — running inside a Claude Code session.\n" ++
    "   If workflows hang silently, this is a known class of issue.\n" ++
    "   Workaround: run `archon serve` from a regular shell.\n" ++
    "   Suppress: set ARCHON_SUPPRESS_NESTED_CLAUDE_WARNING=1\n" ++
    "   Details: https://github.com/coleam00/Archon/issues/1067\n"

inductive ParseResult
  | keys (keys : List String)
  | notFound
  | parseError (message : String)
  deriving DecidableEq, Repr

def readLines (keys : List String) : List (Except String Assignment) → ParseResult
  | [] => .keys keys
  | .ok assignment :: rest => readLines (keys ++ [assignment.key]) rest
  | .error error :: _ => .parseError error

def parseEnvFileKeys : EnvFile → ParseResult
  | .missing => .notFound
  | .unreadable error => .parseError error
  | .lines lines => readLines [] lines

structure Collected where
  cwdKeys : List String := []
  strippedFiles : List String := []
  messages : List String := []
  deriving DecidableEq, Repr

def Collected.read (directory : Directory) (collected : Collected) (filename : String) :
    Collected :=
  match parseEnvFileKeys (directory.file filename) with
  | .keys keys =>
      if keys = [] then collected
      else
        { collected with
          strippedFiles := collected.strippedFiles ++ [filename]
          cwdKeys := keys.foldl (fun known key => known.insert key) collected.cwdKeys }
  | .notFound => collected
  | .parseError message =>
      { collected with
        messages := collected.messages ++
          ["[archon] Warning: could not parse " ++ directory.displayFile filename ++
            " for CWD env stripping: " ++ message ++ "\n"] }

def collect (directory : Directory) : Collected :=
  bunAutoLoadedEnvFiles.foldl (Collected.read directory) {}

def strippedMessage (directory : Directory) (collected : Collected) : String :=
  "[archon] stripped " ++ toString collected.cwdKeys.length ++ " keys from " ++
    directory.display ++ " (" ++ ", ".intercalate collected.strippedFiles ++
    ") to prevent target repo env from leaking into Archon processes\n"

def isNestedMarker (key : String) : Bool :=
  "CLAUDE_CODE_".toList.isPrefixOf key.toList && !claudeCodeAuthVars.contains key

structure Stripped where
  environment : Option ProcessEnvironment
  messages : List String

def stripCwdEnv (directory : Directory) (env : ProcessEnvironment) : Stripped :=
  let collected := collect directory
  let env := collected.cwdKeys.foldl removeVar env
  let summary :=
    if collected.cwdKeys = [] then [] else [strippedMessage directory collected]
  let warning :=
    if var env "CLAUDECODE" = some "1" ∧
        var env "ARCHON_SUPPRESS_NESTED_CLAUDE_WARNING" = none then [nestedClaudeWarning]
    else []
  let env := if (var env "CLAUDECODE").isSome then removeVar env "CLAUDECODE" else env
  { messages := collected.messages ++ summary ++ warning
    environment := (vars env).map fun shown =>
      let claudeCodeKeys := (shown.map Prod.fst).filter isNestedMarker
      let env := claudeCodeKeys.foldl removeVar env
      removeVar (removeVar env "NODE_OPTIONS") "VSCODE_INSPECTOR_OPTIONS" }

/-! ## What the files define -/

/-- A line of some file, well-formed itself, defines the key. -/
def Defines (directory : Directory) (key : String) : Prop :=
  ∃ filename ∈ bunAutoLoadedEnvFiles, ∃ lines, directory.file filename = .lines lines ∧
    ∃ assignment, .ok assignment ∈ lines ∧ assignment.key = key

def CleanlyDefines (directory : Directory) (key : String) : Prop :=
  ∃ filename ∈ bunAutoLoadedEnvFiles, ∃ read : List Assignment,
    directory.file filename = .lines (read.map .ok) ∧ key ∈ read.map Assignment.key

variable {directory : Directory} {key : String}

theorem CleanlyDefines.defines (clean : CleanlyDefines directory key) : Defines directory key := by
  rcases clean with ⟨filename, member, read, file, defined⟩
  rcases List.mem_map.mp defined with ⟨assignment, own, same⟩
  exact ⟨filename, member, _, file, assignment, List.mem_map_of_mem own, same⟩

theorem readLines_eq_keys_iff (keys : List String) (lines : List (Except String Assignment))
    (found : List String) :
    readLines keys lines = .keys found ↔
      ∃ read : List Assignment, lines = read.map .ok ∧ found = keys ++ read.map Assignment.key := by
  induction lines generalizing keys with
  | nil =>
      rw [readLines, ParseResult.keys.injEq]
      constructor
      · intro same
        exact ⟨[], rfl, by rw [List.map_nil, List.append_nil, same]⟩
      · intro found
        rcases found with ⟨read, none, rfl⟩
        rw [List.map_eq_nil_iff.mp none.symm, List.map_nil, List.append_nil]
  | cons line rest induction =>
      cases line with
      | error error =>
          rw [readLines]
          refine iff_of_false (fun wrong => by cases wrong) ?_
          intro found
          rcases found with ⟨read, lines, -⟩
          cases read with
          | nil => cases lines
          | cons first read => cases lines
      | ok assignment =>
          rw [readLines, induction]
          constructor
          · intro found
            rcases found with ⟨read, rfl, rfl⟩
            exact ⟨assignment :: read, rfl, by rw [List.append_assoc]; rfl⟩
          · intro found
            rcases found with ⟨read, lines, rfl⟩
            cases read with
            | nil => cases lines
            | cons first read =>
                cases lines
                exact ⟨read, rfl, by rw [List.append_assoc]; rfl⟩

theorem parseEnvFileKeys_eq_keys_iff (file : EnvFile) (found : List String) :
    parseEnvFileKeys file = .keys found ↔
      ∃ read : List Assignment, file = .lines (read.map .ok) ∧ found = read.map Assignment.key := by
  cases file with
  | missing => simp [parseEnvFileKeys]
  | unreadable error => simp [parseEnvFileKeys]
  | lines lines =>
      rw [parseEnvFileKeys, readLines_eq_keys_iff]
      simp only [EnvFile.lines.injEq, List.nil_append]

theorem mem_foldl_insert (keys known : List String) (key : String) :
    key ∈ keys.foldl (fun known key => known.insert key) known ↔ key ∈ known ∨ key ∈ keys := by
  induction keys generalizing known with
  | nil => simp
  | cons first keys induction =>
      rw [List.foldl_cons, induction, List.mem_insert_iff, List.mem_cons,
        or_comm (a := key = first), or_assoc]

/-- The keys that are known after one more file: those of its lines, if all are well-formed. -/
theorem mem_cwdKeys_read (directory : Directory) (collected : Collected) (filename key : String) :
    key ∈ (collected.read directory filename).cwdKeys ↔
      key ∈ collected.cwdKeys ∨ ∃ keys,
        parseEnvFileKeys (directory.file filename) = .keys keys ∧ key ∈ keys := by
  rw [Collected.read]
  cases parseEnvFileKeys (directory.file filename) with
  | notFound => simp
  | parseError message => simp
  | keys keys =>
      dsimp only
      by_cases empty : keys = []
      · rw [if_pos empty, empty]
        simp
      · rw [if_neg empty]
        dsimp only
        rw [mem_foldl_insert]
        simp only [ParseResult.keys.injEq, exists_eq_left']

theorem mem_cwdKeys_foldl (directory : Directory) (filenames : List String) (collected : Collected)
    (key : String) :
    key ∈ (filenames.foldl (Collected.read directory) collected).cwdKeys ↔
      key ∈ collected.cwdKeys ∨ ∃ filename ∈ filenames, ∃ keys,
        parseEnvFileKeys (directory.file filename) = .keys keys ∧ key ∈ keys := by
  induction filenames generalizing collected with
  | nil => simp
  | cons filename filenames induction =>
      rw [List.foldl_cons, induction, mem_cwdKeys_read, List.exists_mem_cons_iff, or_assoc]

theorem mem_cwdKeys (directory : Directory) (key : String) :
    key ∈ (collect directory).cwdKeys ↔ CleanlyDefines directory key := by
  rw [collect, mem_cwdKeys_foldl, or_iff_right List.not_mem_nil, CleanlyDefines]
  simp only [parseEnvFileKeys_eq_keys_iff]
  constructor
  · intro found
    rcases found with ⟨filename, member, keys, ⟨read, file, rfl⟩, own⟩
    exact ⟨filename, member, read, file, own⟩
  · intro clean
    rcases clean with ⟨filename, member, read, file, own⟩
    exact ⟨filename, member, _, ⟨read, file, rfl⟩, own⟩

/-! ## What is removed -/

def without (keys : List String) (env : ProcessEnvironment) : ProcessEnvironment :=
  env.filter fun entry => ∀ key ∈ keys, entry.1 ≠ .unicode key

theorem without_append (first second : List String) (env : ProcessEnvironment) :
    without second (without first env) = without (first ++ second) env := by
  rw [without, without, without, List.filter_filter]
  apply List.filter_congr
  intro entry _
  rw [← Bool.decide_and]
  apply decide_eq_decide.mpr
  rw [List.forall_mem_append, and_comm]

theorem removeVar_eq (env : ProcessEnvironment) (key : String) :
    removeVar env key = without [key] env := by
  apply List.filter_congr
  intro entry _
  apply decide_eq_decide.mpr
  rw [List.forall_mem_singleton]

theorem foldl_removeVar (keys : List String) (env : ProcessEnvironment) :
    keys.foldl removeVar env = without keys env := by
  induction keys generalizing env with
  | nil => exact (List.filter_eq_self.mpr (by simp)).symm
  | cons key keys induction =>
      rw [List.foldl_cons, induction, removeVar_eq, without_append, List.singleton_append]

variable {env : ProcessEnvironment} {keys : List String}

theorem mem_without {entry : OsText × OsText} :
    entry ∈ without keys env ↔ entry ∈ env ∧ ∀ key ∈ keys, entry.1 ≠ .unicode key := by
  rw [without, List.mem_filter, decide_eq_true_eq]

theorem filter_without (other : ∀ key ∈ keys, name ≠ .unicode key) (env : ProcessEnvironment) :
    (without keys env).filter (·.1 = name) = env.filter (·.1 = name) := by
  rw [without, List.filter_filter]
  apply List.filter_congr
  intro entry _
  rw [← Bool.decide_and]
  apply decide_eq_decide.mpr
  apply and_iff_left_of_imp
  intro same
  rw [same]
  exact other

def earlyKeys (directory : Directory) (env : ProcessEnvironment) : List String :=
  (collect directory).cwdKeys ++
    if (var (without (collect directory).cwdKeys env) "CLAUDECODE").isSome then ["CLAUDECODE"]
    else []

def removedKeys (directory : Directory) (env : ProcessEnvironment)
    (shown : List (String × String)) : List String :=
  earlyKeys directory env ++ ((shown.map Prod.fst).filter isNestedMarker ++
    ["NODE_OPTIONS", "VSCODE_INSPECTOR_OPTIONS"])

theorem stripCwdEnv_environment (directory : Directory) (env : ProcessEnvironment) :
    (stripCwdEnv directory env).environment =
      (vars (without (earlyKeys directory env) env)).map fun shown =>
        without (removedKeys directory env shown) env := by
  rw [stripCwdEnv]
  simp only [foldl_removeVar, removeVar_eq, without_append]
  have early : (if (var (without (collect directory).cwdKeys env) "CLAUDECODE").isSome = true then
      without ((collect directory).cwdKeys ++ ["CLAUDECODE"]) env
    else without (collect directory).cwdKeys env) = without (earlyKeys directory env) env := by
    rw [earlyKeys]
    split
    · rfl
    · rw [List.append_nil]
  rw [early]
  congr 1
  funext shown
  rw [without_append, removedKeys, List.append_assoc]
  rfl

/-! ## Listing the variables -/

def packed (shown : List (String × String)) : ProcessEnvironment :=
  shown.map fun entry => (.unicode entry.1, .unicode entry.2)

theorem vars_packed (shown : List (String × String)) : vars (packed shown) = some shown := by
  induction shown with
  | nil => rfl
  | cons entry shown induction =>
      change (vars (packed shown)).map (entry :: ·) = some (entry :: shown)
      rw [induction, Option.map_some]

theorem exists_packed_iff (env : ProcessEnvironment) :
    (∃ shown, env = packed shown) ↔
      ∀ entry ∈ env, ∃ name value, entry = (.unicode name, .unicode value) := by
  induction env with
  | nil => exact iff_of_true ⟨[], rfl⟩ (by simp)
  | cons entry env induction =>
      rw [List.forall_mem_cons, ← induction]
      constructor
      · intro packs
        rcases packs with ⟨shown, same⟩
        cases shown with
        | nil => cases same
        | cons first shown =>
            cases same
            exact ⟨⟨first.1, first.2, rfl⟩, shown, rfl⟩
      · intro parts
        rcases parts with ⟨⟨name, value, rfl⟩, shown, rfl⟩
        exact ⟨(name, value) :: shown, rfl⟩

variable {shown : List (String × String)}

theorem vars_eq_some (listed : vars env = some shown) : env = packed shown := by
  induction env generalizing shown with
  | nil =>
      cases listed
      rfl
  | cons entry env induction =>
      rcases entry with ⟨name | name, value | value⟩
      · rw [vars, Option.map_eq_some_iff] at listed
        rcases listed with ⟨rest, own, rfl⟩
        rw [induction own]
        rfl
      · cases listed
      · cases listed
      · cases listed

theorem isSome_var_packed (listed : name ∈ shown.map Prod.fst) :
    (var (packed shown) name).isSome = true := by
  induction shown with
  | nil => cases listed
  | cons entry shown induction =>
      rw [var, packed, List.map_cons, List.lookup_cons]
      by_cases same : name = entry.1
      · rw [same, beq_self_eq_true]
        rfl
      · have other : (OsText.unicode name == OsText.unicode entry.1) = false := by
          rw [beq_eq_false_iff_ne, ne_eq, OsText.unicode.injEq]
          exact same
        rw [other]
        exact induction ((List.mem_cons.mp listed).resolve_left same)

/-! ## The keys that go -/

def isMarker (key : String) : Bool :=
  key = "CLAUDECODE" || isNestedMarker key || key = "NODE_OPTIONS" ||
    key = "VSCODE_INSPECTOR_OPTIONS"

theorem lookup_filter (env : ProcessEnvironment) (name : OsText) :
    (env.filter (·.1 = name)).lookup name = env.lookup name := by
  induction env with
  | nil => rfl
  | cons entry env induction =>
      rw [List.lookup_cons]
      by_cases same : name = entry.1
      · rw [List.filter_cons, if_pos (decide_eq_true same.symm), List.lookup_cons, same,
          beq_self_eq_true]
      · rw [List.filter_cons, if_neg (by simpa using Ne.symm same), induction,
          beq_eq_false_iff_ne.mpr same]

theorem var_without (other : name ∉ keys) (env : ProcessEnvironment) :
    var (without keys env) name = var env name := by
  have apart : ∀ key ∈ keys, OsText.unicode name ≠ .unicode key := by
    intro key member same
    cases same
    exact other member
  rw [var, var, ← lookup_filter, filter_without apart, lookup_filter]

theorem mem_earlyKeys (directory : Directory) (env : ProcessEnvironment) (key : String) :
    key ∈ earlyKeys directory env ↔
      CleanlyDefines directory key ∨ key = "CLAUDECODE" ∧ (var env "CLAUDECODE").isSome := by
  rw [earlyKeys, List.mem_append, mem_cwdKeys]
  by_cases clean : "CLAUDECODE" ∈ (collect directory).cwdKeys
  · -- The file takes the marker away, so nothing is added to what the files define.
    have absorbed : key = "CLAUDECODE" → CleanlyDefines directory key := by
      intro same
      rw [same]
      exact (mem_cwdKeys directory _).mp clean
    constructor
    · intro early
      rcases early with own | marker
      · exact .inl own
      · split at marker
        · exact .inl (absorbed (List.mem_singleton.mp marker))
        · cases marker
    · intro early
      rcases early with own | marker
      · exact .inl own
      · exact .inl (absorbed marker.1)
  · rw [var_without clean]
    apply or_congr_right
    split
    · next set => rw [List.mem_singleton, and_iff_left set]
    · next unset => exact iff_of_false List.not_mem_nil (fun both => unset both.2)

theorem listed_of_not_mem (listed : without (earlyKeys directory env) env = packed shown)
    (present : .unicode key ∈ env.map Prod.fst) (left : key ∉ earlyKeys directory env) :
    key ∈ shown.map Prod.fst := by
  rcases List.mem_map.mp present with ⟨entry, member, name⟩
  have stays : entry ∈ without (earlyKeys directory env) env := by
    refine mem_without.mpr ⟨member, ?_⟩
    intro own early same
    rw [name, OsText.unicode.injEq] at same
    rw [same] at left
    exact left early
  rw [listed] at stays
  rcases List.mem_map.mp stays with ⟨pair, own, rfl⟩
  exact List.mem_map.mpr ⟨pair, own, OsText.unicode.inj name⟩

theorem claudeCode_mem_earlyKeys (listed : without (earlyKeys directory env) env = packed shown)
    (present : .unicode "CLAUDECODE" ∈ env.map Prod.fst) :
    "CLAUDECODE" ∈ earlyKeys directory env := by
  by_contra left
  have shows := isSome_var_packed (listed_of_not_mem listed present left)
  rw [← listed, earlyKeys] at shows
  split at shows
  · next set =>
      rw [earlyKeys, if_pos set] at left
      exact left (List.mem_append_right _ (List.mem_singleton.mpr rfl))
  · next unset =>
      rw [List.append_nil] at shows
      exact unset shows

theorem isMarker_iff (key : String) :
    isMarker key = true ↔ key = "CLAUDECODE" ∨ isNestedMarker key = true ∨
      key = "NODE_OPTIONS" ∨ key = "VSCODE_INSPECTOR_OPTIONS" := by
  rw [isMarker, Bool.or_eq_true, Bool.or_eq_true, Bool.or_eq_true, decide_eq_true_eq,
    decide_eq_true_eq, decide_eq_true_eq, or_assoc, or_assoc]

theorem not_isMarker_of_auth (auth : key ∈ claudeCodeAuthVars) : ¬isMarker key = true := by
  simp only [claudeCodeAuthVars, List.mem_cons, List.not_mem_nil, or_false] at auth
  rcases auth with rfl | rfl | rfl
  · decide
  · decide
  · decide

theorem reason_of_mem_removedKeys (removed : key ∈ removedKeys directory env shown) :
    CleanlyDefines directory key ∨ isMarker key = true := by
  rw [isMarker_iff]
  rcases List.mem_append.mp removed with early | late
  · rcases (mem_earlyKeys directory env key).mp early with clean | marker
    · exact .inl clean
    · exact .inr (.inl marker.1)
  · rcases List.mem_append.mp late with nested | debugger
    · exact .inr (.inr (.inl (List.mem_filter.mp nested).2))
    · exact .inr (.inr (.inr (List.mem_pair.mp debugger)))

/-- Of the variables that are there, those go that a file without an error defines, and the
markers. -/
theorem mem_removedKeys (listed : without (earlyKeys directory env) env = packed shown)
    (present : .unicode key ∈ env.map Prod.fst) :
    key ∈ removedKeys directory env shown ↔ CleanlyDefines directory key ∨ isMarker key = true := by
  constructor
  · exact reason_of_mem_removedKeys
  · intro goes
    rw [isMarker_iff] at goes
    rw [removedKeys, List.mem_append, List.mem_append, List.mem_filter, List.mem_pair]
    rcases goes with clean | marker | nested | debugger
    · exact .inl (List.mem_append_left _ ((mem_cwdKeys directory key).mpr clean))
    · rw [marker] at present ⊢
      exact .inl (claudeCode_mem_earlyKeys listed present)
    · by_cases early : key ∈ earlyKeys directory env
      · exact .inl early
      · exact .inr (.inl ⟨listed_of_not_mem listed present early, nested⟩)
    · exact .inr (.inr debugger)

/-! ## What the function is for -/

/-- Afterwards no variable that the files define is left, and those that neither the files
define nor are markers keep their values, those for the authentication among them. -/
def Strips (directory : Directory) (env : ProcessEnvironment) : Prop :=
  ∃ after, (stripCwdEnv directory env).environment = some after ∧
    (∀ key, Defines directory key → .unicode key ∉ after.map Prod.fst) ∧
    (∀ name : OsText, (∀ key, Defines directory key ∨ isMarker key = true → name ≠ .unicode key) →
      after.filter (·.1 = name) = env.filter (·.1 = name)) ∧
    ∀ key ∈ claudeCodeAuthVars, ¬Defines directory key →
      after.filter (·.1 = .unicode key) = env.filter (·.1 = .unicode key)

def Listable (directory : Directory) (env : ProcessEnvironment) : Prop :=
  ∀ entry ∈ env, (∃ name value, entry = (.unicode name, .unicode value)) ∨
    ∃ key, entry.1 = .unicode key ∧ (CleanlyDefines directory key ∨
      key = "CLAUDECODE" ∧ (var env "CLAUDECODE").isSome)

theorem listable_iff (directory : Directory) (env : ProcessEnvironment) :
    Listable directory env ↔ ∃ shown, without (earlyKeys directory env) env = packed shown := by
  rw [exists_packed_iff, Listable]
  constructor
  · intro listable entry member
    rcases mem_without.mp member with ⟨own, left⟩
    rcases listable entry own with shown | removed
    · exact shown
    · rcases removed with ⟨key, name, early⟩
      exact absurd name (left key ((mem_earlyKeys directory env key).mpr early))
  · intro shown entry member
    by_cases removed : ∃ key ∈ earlyKeys directory env, entry.1 = .unicode key
    · rcases removed with ⟨key, early, name⟩
      exact .inr ⟨key, name, (mem_earlyKeys directory env key).mp early⟩
    · refine .inl (shown entry (mem_without.mpr ⟨member, ?_⟩))
      intro key early name
      exact removed ⟨key, early, name⟩

theorem environment_eq_some_iff (directory : Directory) (env after : ProcessEnvironment) :
    (stripCwdEnv directory env).environment = some after ↔
      ∃ shown, without (earlyKeys directory env) env = packed shown ∧
        after = without (removedKeys directory env shown) env := by
  rw [stripCwdEnv_environment, Option.map_eq_some_iff]
  constructor
  · intro found
    rcases found with ⟨shown, listed, rfl⟩
    exact ⟨shown, vars_eq_some listed, rfl⟩
  · intro found
    rcases found with ⟨shown, listed, rfl⟩
    exact ⟨shown, by rw [listed, vars_packed], rfl⟩

theorem mem_names_without (keys : List String) (env : ProcessEnvironment) (key : String) :
    .unicode key ∈ (without keys env).map Prod.fst ↔
      .unicode key ∈ env.map Prod.fst ∧ key ∉ keys := by
  constructor
  · intro present
    rcases List.mem_map.mp present with ⟨entry, member, name⟩
    rcases mem_without.mp member with ⟨own, left⟩
    exact ⟨List.mem_map.mpr ⟨entry, own, name⟩, fun removed => left key removed name⟩
  · intro both
    rcases both with ⟨present, left⟩
    rcases List.mem_map.mp present with ⟨entry, member, name⟩
    refine List.mem_map.mpr ⟨entry, mem_without.mpr ⟨member, ?_⟩, name⟩
    intro other removed same
    rw [name] at same
    cases same
    exact left removed

theorem filter_removed
    (other : ∀ key, Defines directory key ∨ isMarker key = true → name ≠ .unicode key)
    (env : ProcessEnvironment) (shown : List (String × String)) :
    (without (removedKeys directory env shown) env).filter (·.1 = name) =
      env.filter (·.1 = name) := by
  apply filter_without
  intro key removed
  apply other
  rcases reason_of_mem_removedKeys removed with clean | marker
  · exact .inl clean.defines
  · exact .inr marker

theorem strips_iff (directory : Directory) (env : ProcessEnvironment) :
    Strips directory env ↔
      Listable directory env ∧ ∀ key, Defines directory key → .unicode key ∈ env.map Prod.fst →
        CleanlyDefines directory key ∨ isMarker key = true := by
  rw [listable_iff]
  constructor
  · intro strips
    rcases strips with ⟨after, result, gone, -⟩
    rcases (environment_eq_some_iff directory env after).mp result with ⟨shown, listed, rfl⟩
    refine ⟨⟨shown, listed⟩, ?_⟩
    intro key defined present
    apply (mem_removedKeys listed present).mp
    by_contra left
    exact gone key defined ((mem_names_without _ _ _).mpr ⟨present, left⟩)
  · intro condition
    rcases condition with ⟨⟨shown, listed⟩, covered⟩
    refine ⟨_, (environment_eq_some_iff directory env _).mpr ⟨shown, listed, rfl⟩, ?_, ?_, ?_⟩
    · intro key defined present
      rcases (mem_names_without _ _ _).mp present with ⟨own, left⟩
      exact left ((mem_removedKeys listed own).mpr (covered key defined own))
    · intro name other
      exact filter_removed other env shown
    · intro key auth undefined
      apply filter_removed
      intro other reason same
      cases same
      rcases reason with defined | marker
      · exact undefined defined
      · exact not_isMarker_of_auth auth marker

def secret : Assignment := ⟨"TARGET_SECRET", "1", by decide⟩

def spoiledDirectory : Directory where
  display := "repo"
  file := fun filename =>
    if filename = ".env" then .lines [.error "Error parsing line: 'x y'", .ok secret] else .missing
  displayFile := fun filename => "repo/" ++ filename

def leakedEnvironment : ProcessEnvironment := [(.unicode "TARGET_SECRET", .unicode "1")]

/-- The bad line keeps the key of the other one, and a value that is not Unicode ends the
process before the debugger variables are removed. -/
theorem not_strips_spoiledDirectory :
    ¬Strips spoiledDirectory leakedEnvironment ∧
      ¬Strips { spoiledDirectory with file := fun _ => .missing }
        [(.unicode "NODE_OPTIONS", .unicode "--inspect"), (.unicode "LEGACY", .other [0xFF])] := by
  constructor
  · intro strips
    rcases strips with ⟨after, result, gone, -⟩
    have kept : (stripCwdEnv spoiledDirectory leakedEnvironment).environment =
        some leakedEnvironment := by decide
    rw [kept] at result
    cases result
    refine gone "TARGET_SECRET" ?_ (List.mem_singleton.mpr rfl)
    exact ⟨".env", List.mem_cons_self, _, rfl, secret, List.mem_cons_of_mem _ List.mem_cons_self,
      rfl⟩
  · intro strips
    rcases strips with ⟨after, result, -⟩
    cases result

end CwdEnvironment

end HarnessAgent
