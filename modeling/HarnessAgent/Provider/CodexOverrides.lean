import HarnessAgent.Foundation.Lists
import HarnessAgent.Foundation.Toml
import HarnessAgent.Provider.CodexArgv
import HarnessAgent.Provider.McpConfig

/-! # Overrides read back

What the CLI has of a configuration when it reads the overrides as TOML and merges them.
-/

namespace HarnessAgent

namespace Codex

open DottedKeys Results

variable (rendering : Rendering)

/-! ## What is conveyed -/

mutual
def isExpressible : Value → Bool
  | .null => false
  | .bool _ => true
  | .number number => number.asF64.isFinite
  | .string _ => true
  | .array items => isExpressibleItems items
  | .object members => isExpressibleMembers members

def isExpressibleItems : List Value → Bool
  | [] => true
  | item :: rest => isExpressible item && isExpressibleItems rest

def isExpressibleMembers : List (String × Value) → Bool
  | [] => true
  | (_, value) :: rest => isExpressible value && isExpressibleMembers rest
end

mutual
def conveyed : List (String × Value) → List (String × Value)
  | [] => []
  | (key, child) :: rest =>
      (if key = "" then [] else ((conveyedValue child).map fun value => (key, value)).toList) ++
        conveyed rest

def conveyedValue : Value → Option Value
  | .object nested =>
      if nested.isEmpty then some (.object [])
      else if (conveyed nested).isEmpty then none
      else some (.object (conveyed nested))
  | value => if isExpressible value then some value else none
end

mutual
/-- An object without null members and members without a key, at any depth. -/
def cleaned : List (String × Value) → List (String × Value)
  | [] => []
  | (key, child) :: rest =>
      if key = "" || child.isNull then cleaned rest else (key, cleanedValue child) :: cleaned rest

def cleanedValue : Value → Value
  | .array items => .array (cleanedItems items)
  | .object members => .object (cleaned members)
  | value => value

def cleanedItems : List Value → List Value
  | [] => []
  | item :: rest => cleanedValue item :: cleanedItems rest
end

mutual
/-- Whether only null members and members without a key are lost: arrays can be written, and
of an object with members one is conveyed. -/
def keepsAll : List (String × Value) → Bool
  | [] => true
  | (key, child) :: rest => (key = "" || child.isNull || keepsAllOf child) && keepsAll rest

def keepsAllOf : Value → Bool
  | .object nested => (nested.isEmpty || !(conveyed nested).isEmpty) && keepsAll nested
  | value => isExpressible value
end

/-! ## What is written as TOML -/

def isLegibleKey (key : String) : Bool :=
  if key.toList.all (isBareCharacter rendering) then
    key ≠ "" && key.toList.all Toml.isBareCharacter
  else key.toList.all Toml.isPrintable

variable (readNumber : List Char → Option Number)

mutual
def isLegible : Value → Bool
  | .null => true
  | .bool _ => true
  | .number number => Toml.isNumberText readNumber (rendering.formatNumber number) number
  | .string text => !text.toList.contains (Char.ofNat 0x7F)
  | .array items => isLegibleItems items
  | .object members => isLegibleMembers members

def isLegibleItems : List Value → Bool
  | [] => true
  | item :: rest => isLegible item && isLegibleItems rest

def isLegibleMembers : List (String × Value) → Bool
  | [] => true
  | (key, value) :: rest => isLegibleKey rendering key && isLegible value && isLegibleMembers rest
end

def isLegibleOverride (definition : Definition) : Bool :=
  definition.1.all (fun key => key ≠ "" && key.toList.all Toml.isBareCharacter) &&
    isLegible rendering readNumber definition.2

def isLegibleConfig (members : Members) : Bool :=
  (leaves (conveyed members)).all (isLegibleOverride rendering readNumber)

/-- The overrides convey the whole configuration, but for nulls and empty keys. -/
def RoundTrips (members : Members) : Prop :=
  Toml.readLines readNumber (flattenConfigOverrides rendering "" members) = some (cleaned members)

variable {rendering readNumber}

theorem isLegibleItems_eq_all (items : List Value) :
    isLegibleItems rendering readNumber items = items.all (isLegible rendering readNumber) := by
  induction items with
  | nil => rfl
  | cons item rest induction => rw [isLegibleItems, induction, List.all_cons]

theorem isLegibleMembers_eq_all (members : Members) :
    isLegibleMembers rendering readNumber members = members.all fun member =>
      isLegibleKey rendering member.1 && isLegible rendering readNumber member.2 := by
  induction members with
  | nil => rfl
  | cons member rest induction => rw [isLegibleMembers, induction, List.all_cons]

/-! ## Values that can be written -/

theorem toTomlItems_ok_iff
    (values : ∀ item ∈ items, ∀ path, (∃ text, toTomlValue rendering path item = .ok text) ↔
      isExpressible item = true) (path : String) (index : Nat) :
    (∃ parts, toTomlItems rendering path index items = .ok parts) ↔
      isExpressibleItems items = true := by
  induction items generalizing index with
  | nil => exact iff_of_true ⟨[], rfl⟩ rfl
  | cons item rest induction =>
      rw [List.forall_mem_cons] at values
      rw [isExpressibleItems, Bool.and_eq_true, ← values.1 (path ++ "[" ++ toString index ++ "]"),
        ← induction values.2 (index + 1)]
      constructor
      · rintro ⟨parts, done⟩
        rcases bind_eq_ok.mp done with ⟨part, first, others⟩
        rcases bind_eq_ok.mp others with ⟨later, second, -⟩
        exact ⟨⟨part, first⟩, later, second⟩
      · rintro ⟨⟨part, first⟩, later, second⟩
        exact ⟨part :: later, bind_eq_ok.mpr ⟨part, first, bind_eq_ok.mpr ⟨later, second, rfl⟩⟩⟩

variable {members : Members}

theorem toTomlMembers_ok_iff (values : ∀ member ∈ members, ∀ path,
      (∃ text, toTomlValue rendering path member.2 = .ok text) ↔ isExpressible member.2 = true)
    (path : String) :
    (∃ parts, toTomlMembers rendering path members = .ok parts) ↔
      isExpressibleMembers members = true := by
  induction members with
  | nil => exact iff_of_true ⟨[], rfl⟩ rfl
  | cons member rest induction =>
      rcases member with ⟨key, child⟩
      rw [List.forall_mem_cons] at values
      rw [isExpressibleMembers, Bool.and_eq_true, ← values.1 (path ++ "." ++ key),
        ← induction values.2]
      constructor
      · rintro ⟨parts, done⟩
        rcases bind_eq_ok.mp done with ⟨part, first, others⟩
        rcases bind_eq_ok.mp others with ⟨later, second, -⟩
        exact ⟨⟨part, first⟩, later, second⟩
      · rintro ⟨⟨part, first⟩, later, second⟩
        exact ⟨_, bind_eq_ok.mpr ⟨part, first, bind_eq_ok.mpr ⟨later, second, rfl⟩⟩⟩

theorem toTomlValue_ok_iff (value : Value) (path : String) :
    (∃ text, toTomlValue rendering path value = .ok text) ↔ isExpressible value = true := by
  induction value using Value.tree_rule generalizing path with
  | plain value plain =>
      cases value with
      | array items => cases plain
      | object members => cases plain
      | null => exact iff_of_false nofun Bool.false_ne_true
      | bool value => exact iff_of_true ⟨_, rfl⟩ rfl
      | string text => exact iff_of_true ⟨_, rfl⟩ rfl
      | number number =>
          rw [toTomlValue, isExpressible]
          split
          · next finite => exact iff_of_true ⟨_, rfl⟩ finite
          · next other => exact iff_of_false nofun other
  | array items induction =>
      rw [isExpressible, ← toTomlItems_ok_iff induction path 0, toTomlValue]
      exact isOk_bind_ok _
  | object members induction =>
      rw [isExpressible, ← toTomlMembers_ok_iff induction path, toTomlValue]
      exact isOk_bind_ok _

/-! ## Values that are read back -/

theorem readsKey_formatTomlKey (legible : isLegibleKey rendering key = true) :
    Toml.ReadsKey (formatTomlKey rendering key) key := by
  unfold isLegibleKey at legible
  unfold formatTomlKey
  split at legible
  · next bare =>
      rw [Bool.and_eq_true, decide_eq_true_eq, List.all_eq_true] at legible
      rw [if_pos bare]
      exact Toml.readsKey_bare legible.1 legible.2
  · next quoted =>
      rw [List.all_eq_true] at legible
      rw [if_neg quoted]
      apply Toml.readsKey_quoted
      intro character listed rest
      unfold quotedCharacter
      split
      · next same =>
          rw [same]
          exact Toml.readBasic_escape rfl rest
      · next backslash =>
          split
          · next same =>
              rw [same]
              exact Toml.readBasic_escape rfl rest
          · next quote =>
              exact Toml.readBasic_printable (legible character listed) quote backslash rest

variable {path : String}

theorem forall₂_toTomlItems
    (values : ∀ item ∈ items, ∀ path text, toTomlValue rendering path item = .ok text →
      Toml.Reads readNumber text item)
    (written : toTomlItems rendering path index items = .ok parts) :
    List.Forall₂ (Toml.Reads readNumber) parts items := by
  induction items generalizing index parts with
  | nil =>
      cases written
      exact .nil
  | cons item rest induction =>
      rw [List.forall_mem_cons] at values
      rcases bind_eq_ok.mp written with ⟨part, first, others⟩
      rcases bind_eq_ok.mp others with ⟨later, second, done⟩
      cases done
      exact .cons (values.1 _ _ first) (induction values.2 second)

theorem forall₂_toTomlMembers (keys : ∀ member ∈ members, isLegibleKey rendering member.1 = true)
    (values : ∀ member ∈ members, ∀ path text, toTomlValue rendering path member.2 = .ok text →
      Toml.Reads readNumber text member.2)
    (written : toTomlMembers rendering path members = .ok parts) :
    List.Forall₂ (Toml.ReadsMember readNumber) parts members := by
  induction members generalizing parts with
  | nil =>
      cases written
      exact .nil
  | cons member rest induction =>
      rcases member with ⟨key, child⟩
      rw [List.forall_mem_cons] at keys values
      rcases bind_eq_ok.mp written with ⟨part, first, others⟩
      rcases bind_eq_ok.mp others with ⟨later, second, done⟩
      cases done
      refine .cons ⟨formatTomlKey rendering key, part, ?_, readsKey_formatTomlKey keys.1,
        values.1 _ _ first⟩ (induction keys.2 values.2 second)
      rw [List.append_assoc]
      rfl

theorem reads_toTomlValue (value : Value) (formed : value.Formed)
    (legible : isLegible rendering readNumber value = true)
    (written : toTomlValue rendering path value = .ok text) : Toml.Reads readNumber text value := by
  induction value using Value.tree_rule generalizing path text with
  | plain value plain =>
      cases value with
      | array items => cases plain
      | object members => cases plain
      | null => cases written
      | bool value =>
          cases written
          cases value with
          | true => exact Toml.reads_true
          | false => exact Toml.reads_false
      | string content =>
          cases written
          have shown : Char.ofNat 0x7F ∉ content.toList := by
            simpa [isLegible] using legible
          have characters : ∀ character ∈ content.toList, ∀ rest,
              Toml.readBasic .between (JsonText.escaped character ++ rest) =
                Toml.pushed character (Toml.readBasic .between rest) :=
            fun character listed => Toml.readBasic_escaped fun same => shown (same ▸ listed)
          have reads := @Toml.reads_string readNumber _ _ (Toml.readBasic_flatMap characters)
          rw [String.ofList_toList] at reads
          exact reads
      | number number =>
          rw [toTomlValue] at written
          split at written
          · cases written
            exact Toml.reads_number legible
          · cases written
  | array items induction =>
      rw [isLegible, isLegibleItems_eq_all, List.all_eq_true] at legible
      rw [Value.formed_array_iff] at formed
      rw [toTomlValue] at written
      rcases bind_eq_ok.mp written with ⟨parts, first, done⟩
      cases done
      apply Toml.reads_array
      apply forall₂_toTomlItems _ first
      intro item listed path text
      exact induction item listed (formed item listed) (legible item listed)
  | object members induction =>
      simp only [isLegible, isLegibleMembers_eq_all, List.all_eq_true, Bool.and_eq_true] at legible
      rcases Value.formed_object_iff.mp formed with ⟨nodup, inner⟩
      rw [toTomlValue] at written
      rcases bind_eq_ok.mp written with ⟨parts, first, done⟩
      cases done
      refine Toml.reads_object (forall₂_toTomlMembers ?_ ?_ first) nodup
      · exact fun member listed => (legible member listed).1
      · intro member listed path text
        exact induction member listed (inner member listed) (legible member listed).2

/-! ## Overrides that are read back -/

variable {keys : List String}

theorem childPath_intercalate (named : ∀ key ∈ keys, key ≠ "") (key : String) :
    childPath (".".intercalate keys) key = ".".intercalate (keys ++ [key]) := by
  unfold childPath
  cases keys with
  | nil => rfl
  | cons first rest =>
      have filled : ".".intercalate (first :: rest) ≠ "" := by
        have start := named first List.mem_cons_self
        cases rest with
        | nil =>
            rw [String.intercalate_singleton]
            exact start
        | cons next rest =>
            rw [String.intercalate_cons_cons]
            simp
      rw [if_neg filled, String.intercalate_append_of_ne_nil (List.cons_ne_nil _ _)
        (List.cons_ne_nil _ _), String.intercalate_singleton]

def LineReads (readNumber : List Char → Option Number) (keys : List String) (text : List Char)
    (definition : Definition) : Prop :=
  Toml.readLine readNumber text = some (keys ++ definition.1, definition.2)

theorem lineReads_leaf (filled : keys ≠ [])
    (legible : isLegibleOverride rendering readNumber (keys ++ [], value) = true)
    (reads : Toml.Reads readNumber text value) :
    LineReads readNumber keys ((".".intercalate keys).toList ++ '=' :: text) ([], value) := by
  simp only [isLegibleOverride, List.append_nil, Bool.and_eq_true, List.all_eq_true,
    decide_eq_true_eq] at legible
  have keysRead : List.Forall₂ Toml.ReadsKey (keys.map String.toList) keys := by
    rw [List.forall₂_map_left_iff, List.forall₂_same]
    exact fun key listed => Toml.readsKey_bare (legible.1 key listed).1 (legible.1 key listed).2
  have nonempty : keys.map String.toList ≠ [] := by simpa using filled
  rw [LineReads, String.toList_intercalate, List.append_nil]
  exact Toml.readLine_dotted keysRead nonempty reads

variable {child : Value}

theorem flattenChild_of_not_object (other : child.asObject = none) (path : String) :
    flattenChild rendering path child =
      match toTomlValue rendering path child with
      | .ok value => [path.toList ++ '=' :: value]
      | .error _ => [] := by
  cases child with
  | object members => cases other
  | _ => rfl

theorem conveyedValue_of_not_object (other : child.asObject = none) :
    conveyedValue child = if isExpressible child then some child else none := by
  cases child with
  | object members => cases other
  | _ => rfl

theorem leavesOf_of_not_object (other : child.asObject = none) :
    leavesOf child = [([], child)] := by
  cases child with
  | object members => cases other
  | _ => rfl

theorem leavesOf_conveyedValue_object (filled : nested ≠ []) :
    (conveyedValue (.object nested)).toList.flatMap leavesOf = leaves (conveyed nested) := by
  rw [conveyedValue, if_neg (by rwa [List.isEmpty_iff])]
  by_cases empty : conveyed nested = []
  · rw [empty]
    rfl
  · rw [if_neg (by rwa [List.isEmpty_iff]), Option.toList_some, List.flatMap_singleton,
      leavesOf_object empty]

theorem leaves_append (left right : Members) :
    leaves (left ++ right) = leaves left ++ leaves right := by
  rw [leaves_eq_flatMap, leaves_eq_flatMap, leaves_eq_flatMap, List.flatMap_append]

theorem leaves_conveyed_cons (key : String) (child : Value) (rest : Members) :
    leaves (conveyed ((key, child) :: rest)) =
      (if key = "" then [] else ((conveyedValue child).toList.flatMap leavesOf).map (below key)) ++
        leaves (conveyed rest) := by
  rw [conveyed, leaves_append]
  split
  · rfl
  · cases conveyedValue child with
    | none => rfl
    | some value => simp [leaves]

def ChildReads (rendering : Rendering) (readNumber : List Char → Option Number) (child : Value) :
    Prop :=
  ∀ keys : List String, keys ≠ [] → (∀ key ∈ keys, key ≠ "") →
    (∀ definition ∈ (conveyedValue child).toList.flatMap leavesOf,
      isLegibleOverride rendering readNumber (keys ++ definition.1, definition.2) = true) →
    List.Forall₂ (LineReads readNumber keys)
      (flattenChild rendering (".".intercalate keys) child)
      ((conveyedValue child).toList.flatMap leavesOf)

theorem childReads_of_not_object (other : child.asObject = none) (formed : child.Formed) :
    ChildReads rendering readNumber child := by
  intro keys filled _ legible
  have expressible := @toTomlValue_ok_iff rendering child (".".intercalate keys)
  rw [flattenChild_of_not_object other]
  rw [conveyedValue_of_not_object other] at legible ⊢
  cases written : toTomlValue rendering (".".intercalate keys) child with
  | error message =>
      rw [written] at expressible
      have lost : ¬ isExpressible child = true := fun kept => by
        rcases expressible.mpr kept with ⟨text, impossible⟩
        cases impossible
      rw [if_neg lost]
      exact .nil
  | ok text =>
      have kept := expressible.mp ⟨text, written⟩
      rw [if_pos kept, Option.toList_some, List.flatMap_singleton,
        leavesOf_of_not_object other] at legible ⊢
      have own := legible ([], child) List.mem_cons_self
      have legibleValue : isLegible rendering readNumber child = true := by
        rw [isLegibleOverride, Bool.and_eq_true] at own
        exact own.2
      exact .cons (lineReads_leaf filled own (reads_toTomlValue child formed legibleValue written))
        .nil

theorem flattenConfigOverrides_lineReads
    (values : ∀ member ∈ members, ChildReads rendering readNumber member.2)
    (named : ∀ key ∈ keys, key ≠ "") (legible : ∀ definition ∈ leaves (conveyed members),
      isLegibleOverride rendering readNumber (keys ++ definition.1, definition.2) = true) :
    List.Forall₂ (LineReads readNumber keys)
      (flattenConfigOverrides rendering (".".intercalate keys) members)
      (leaves (conveyed members)) := by
  induction members with
  | nil => exact .nil
  | cons member rest induction =>
      rcases member with ⟨key, child⟩
      rw [List.forall_mem_cons] at values
      rw [leaves_conveyed_cons] at legible ⊢
      rw [List.forall_mem_append] at legible
      rw [flattenConfigOverrides]
      apply List.rel_append _ (induction values.2 legible.2)
      by_cases unnamed : key = ""
      · rw [if_pos unnamed, if_pos unnamed]
        exact .nil
      · have names : ∀ other ∈ keys ++ [key], other ≠ "" := by
          rw [List.forall_mem_append]
          exact ⟨named, by simpa using unnamed⟩
        rw [if_neg unnamed, if_neg unnamed, childPath_intercalate named, List.forall₂_map_right_iff]
        have below := values.1 (keys ++ [key]) (by simp) names fun definition listed => by
          have behind := legible.1
          rw [if_neg unnamed, List.forall_mem_map] at behind
          have own := behind definition listed
          rw [List.append_assoc]
          exact own
        apply below.imp
        intro text definition reads
        rw [LineReads, List.append_assoc] at reads
        exact reads

theorem childReads (child : Value) (formed : child.Formed) :
    ChildReads rendering readNumber child := by
  induction child using Value.tree_rule with
  | plain child plain =>
      apply childReads_of_not_object _ formed
      cases child with
      | object members => cases plain
      | _ => rfl
  | array items induction => exact childReads_of_not_object rfl formed
  | object nested induction =>
      rcases Value.formed_object_iff.mp formed with ⟨nodup, inner⟩
      intro keys filled named legible
      by_cases empty : nested = []
      · subst empty
        have own := legible ([], .object []) List.mem_cons_self
        exact .cons (lineReads_leaf filled own (Toml.reads_object .nil List.Pairwise.nil)) .nil
      · rw [leavesOf_conveyedValue_object empty] at legible ⊢
        rw [flattenChild, if_neg (by rwa [List.isEmpty_iff])]
        exact flattenConfigOverrides_lineReads
          (fun member listed => induction member listed (inner member listed)) named legible

/-! ## Configurations -/

theorem keys_conveyed_sublist (members : Members) :
    List.Sublist (Members.keys (conveyed members)) members.keys := by
  induction members with
  | nil => exact .slnil
  | cons member rest induction =>
      rcases member with ⟨key, child⟩
      rw [conveyed, Members.keys_cons]
      split
      · exact induction.cons key
      · cases conveyedValue child with
        | none => exact induction.cons key
        | some value => exact induction.cons_cons key

theorem exists_of_mem_conveyed (listed : kept ∈ conveyed members) :
    ∃ member ∈ members, conveyedValue member.2 = some kept.2 := by
  induction members with
  | nil => cases listed
  | cons member rest induction =>
      rcases member with ⟨key, child⟩
      rw [conveyed, List.mem_append] at listed
      rcases listed with own | later
      · split at own
        · cases own
        · rw [Option.mem_toList, Option.map_eq_some_iff] at own
          rcases own with ⟨value, found, rfl⟩
          exact ⟨(key, child), List.mem_cons_self, found⟩
      · rcases induction later with ⟨member, known, found⟩
        exact ⟨member, List.mem_cons_of_mem _ known, found⟩

theorem formed_conveyed (nodup : members.keys.Nodup)
    (values : ∀ member ∈ members, ∀ kept, conveyedValue member.2 = some kept → kept.Formed) :
    (Value.object (conveyed members)).Formed := by
  rw [Value.formed_object_iff]
  refine ⟨nodup.sublist (keys_conveyed_sublist members), ?_⟩
  intro kept listed
  rcases exists_of_mem_conveyed listed with ⟨member, known, found⟩
  exact values member known kept.2 found

theorem formed_of_conveyedValue (value : Value) (formed : value.Formed)
    (found : conveyedValue value = some kept) : kept.Formed := by
  induction value using Value.tree_rule generalizing kept with
  | plain value plain =>
      have other : value.asObject = none := by
        cases value with
        | object members => cases plain
        | _ => rfl
      rw [conveyedValue_of_not_object other] at found
      split at found
      · cases found
        exact formed
      · cases found
  | array items induction =>
      rw [conveyedValue_of_not_object rfl] at found
      split at found
      · cases found
        exact formed
      · cases found
  | object nested induction =>
      rcases Value.formed_object_iff.mp formed with ⟨nodup, inner⟩
      rw [conveyedValue] at found
      split at found
      · cases found
        exact Value.formed_object_iff.mpr ⟨List.Pairwise.nil, List.forall_mem_nil _⟩
      · split at found
        · cases found
        · cases found
          exact formed_conveyed nodup fun member listed kept =>
            induction member listed (inner member listed)

theorem cleanedValue_eq_self (value : Value) (expressible : isExpressible value = true)
    (legible : isLegible rendering readNumber value = true) : cleanedValue value = value := by
  induction value using Value.tree_rule with
  | plain value plain =>
      cases value with
      | array items => cases plain
      | object members => cases plain
      | _ => rfl
  | array items induction =>
      rw [isExpressible] at expressible
      rw [isLegible] at legible
      rw [cleanedValue]
      congr 1
      induction items with
      | nil => rfl
      | cons item rest later =>
          rw [List.forall_mem_cons] at induction
          rw [isExpressibleItems, Bool.and_eq_true] at expressible
          rw [isLegibleItems, Bool.and_eq_true] at legible
          rw [cleanedItems, induction.1 expressible.1 legible.1,
            later induction.2 expressible.2 legible.2]
  | object members induction =>
      rw [isExpressible] at expressible
      rw [isLegible] at legible
      rw [cleanedValue]
      congr 1
      induction members with
      | nil => rfl
      | cons member rest later =>
          rcases member with ⟨key, child⟩
          rw [List.forall_mem_cons] at induction
          rw [isExpressibleMembers, Bool.and_eq_true] at expressible
          rw [isLegibleMembers, Bool.and_eq_true, Bool.and_eq_true] at legible
          have named : key ≠ "" := by
            rintro rfl
            exact absurd legible.1.1 (by simp [isLegibleKey])
          have present : child.isNull = false := by
            cases child with
            | null => cases expressible.1
            | _ => rfl
          rw [cleaned, decide_eq_false named, present, Bool.false_or, if_neg Bool.false_ne_true,
            induction.1 expressible.1 legible.1.2, later induction.2 expressible.2 legible.2]

def KeptCleaned (rendering : Rendering) (readNumber : List Char → Option Number) (child : Value) :
    Prop :=
  keepsAllOf child = true →
    (∀ definition ∈ (conveyedValue child).toList.flatMap leavesOf,
      isLegible rendering readNumber definition.2 = true) →
    conveyedValue child = some (cleanedValue child)

theorem conveyed_eq_cleaned (values : ∀ member ∈ members, KeptCleaned rendering readNumber member.2)
    (keeps : keepsAll members = true) (legible : ∀ definition ∈ leaves (conveyed members),
      isLegible rendering readNumber definition.2 = true) : conveyed members = cleaned members := by
  induction members with
  | nil => rfl
  | cons member rest induction =>
      rcases member with ⟨key, child⟩
      rw [List.forall_mem_cons] at values
      rw [leaves_conveyed_cons, List.forall_mem_append] at legible
      rw [keepsAll, Bool.and_eq_true] at keeps
      rw [conveyed, cleaned, induction values.2 keeps.2 legible.2]
      by_cases unnamed : key = ""
      · rw [if_pos unnamed, decide_eq_true unnamed, Bool.true_or, if_pos rfl, List.nil_append]
      · rw [if_neg unnamed, decide_eq_false unnamed, Bool.false_or]
        cases absent : child.isNull with
        | true =>
            cases child with
            | null => rfl
            | _ => cases absent
        | false =>
            have kept : keepsAllOf child = true := by
              rw [decide_eq_false unnamed, absent] at keeps
              exact keeps.1
            have own := legible.1
            rw [if_neg unnamed, List.forall_mem_map] at own
            rw [values.1 kept own]
            rfl

theorem keptCleaned_of_not_object (other : child.asObject = none) :
    KeptCleaned rendering readNumber child := by
  intro keeps legible
  have expressible : isExpressible child = true := by
    cases child with
    | object members => cases other
    | _ => exact keeps
  rw [conveyedValue_of_not_object other, if_pos expressible] at legible ⊢
  rw [Option.toList_some, List.flatMap_singleton, leavesOf_of_not_object other] at legible
  rw [cleanedValue_eq_self child expressible (legible ([], child) List.mem_cons_self)]

theorem keptCleaned (child : Value) : KeptCleaned rendering readNumber child := by
  induction child using Value.tree_rule with
  | plain child plain =>
      apply keptCleaned_of_not_object
      cases child with
      | object members => cases plain
      | _ => rfl
  | array items induction => exact keptCleaned_of_not_object rfl
  | object nested induction =>
      intro keeps legible
      rw [keepsAllOf, Bool.and_eq_true] at keeps
      by_cases empty : nested = []
      · subst empty
        rfl
      · rw [leavesOf_conveyedValue_object empty] at legible
        have same := conveyed_eq_cleaned induction keeps.2 legible
        have filled : conveyed nested ≠ [] := by simpa [empty] using keeps.1
        rw [conveyedValue, if_neg (by rwa [List.isEmpty_iff]), if_neg (by rwa [List.isEmpty_iff]),
          same, cleanedValue]

/-- Overrides that are written as TOML has them are read back as what they convey. If only
null members and members without a key are lost, that is the configuration without these. -/
theorem readLines_flattenConfigOverrides (rendering : Rendering)
    (readNumber : List Char → Option Number) {members : Members}
    (formed : (Value.object members).Formed)
    (legible : isLegibleConfig rendering readNumber members = true) :
    Toml.readLines readNumber (flattenConfigOverrides rendering "" members) =
        some (conveyed members) ∧
      (keepsAll members = true → RoundTrips rendering readNumber members) := by
  rcases Value.formed_object_iff.mp formed with ⟨nodup, inner⟩
  rw [isLegibleConfig, List.all_eq_true] at legible
  have lines := flattenConfigOverrides_lineReads
    (fun member listed => childReads member.2 (inner member listed))
    (List.forall_mem_nil fun key => key ≠ "") legible
  rw [String.intercalate_nil] at lines
  have reads : Toml.readLines readNumber (flattenConfigOverrides rendering "" members) =
      some (conveyed members) := by
    have table := tableOf_leaves (formed_conveyed nodup fun member listed kept =>
      formed_of_conveyedValue member.2 (inner member listed))
    rw [Toml.readLines, mapM_eq_some_of_forall₂ lines, Option.bind_some, table]
  refine ⟨reads, fun keeps => ?_⟩
  have legibleValues : ∀ definition ∈ leaves (conveyed members),
      isLegible rendering readNumber definition.2 = true := by
    intro definition listed
    have own := legible definition listed
    rw [isLegibleOverride, Bool.and_eq_true] at own
    exact own.2
  rw [RoundTrips, reads, conveyed_eq_cleaned (fun member _ => keptCleaned member.2) keeps
    legibleValues]

/-! ## A configuration of servers -/

def exampleRendering : Rendering where
  isAlphanumeric character := character.isAlphanum || character == 'é'
  formatNumber
    | .posInt value => Nat.toDigits 10 value
    | .negInt magnitude => '-' :: Nat.toDigits 10 magnitude
    | .float _ => ['0', '.', '0']

def readDecimal (text : List Char) : Option Number :=
  if text ≠ [] && text.all Char.isDigit then
    some (.posInt (text.foldl (fun value digit => 10 * value + (digit.toNat - 0x30)) 0))
  else none

def serverConfig : Members :=
  [("mcp_servers", .object
      [("db-1", .object
          [("command", .string "say \"é\"\n"),
            ("args", .array [.number (.posInt 30), .object [("a.b = c", .bool true)]]),
            ("env", .object [])]),
        ("gone", .object [("cwd", .null)])]),
    ("", .bool true), ("scopes", .array [.null])]

def conveyedConfig : Members :=
  [("mcp_servers", .object
      [("db-1", .object
          [("command", .string "say \"é\"\n"),
            ("args", .array [.number (.posInt 30), .object [("a.b = c", .bool true)]]),
            ("env", .object [])])])]

theorem serverConfig_readLines :
    Toml.readLines readDecimal (flattenConfigOverrides exampleRendering "" serverConfig) =
        some conveyedConfig ∧
      RoundTrips exampleRendering readDecimal conveyedConfig := by
  have conveys : conveyed serverConfig = conveyedConfig := by decide +kernel
  have whole := @readLines_flattenConfigOverrides exampleRendering readDecimal serverConfig
    (by decide +kernel) (by decide +kernel)
  have kept := @readLines_flattenConfigOverrides exampleRendering readDecimal conveyedConfig
    (by decide +kernel) (by decide +kernel)
  rw [conveys] at whole
  exact ⟨whole.1, kept.2 (by decide +kernel)⟩

/-- Nulls in arrays, objects that lose all members, a server with a dot in its name, letters
that are not ASCII and line ends in keys of an array, and a string with the last character of
ASCII. -/
theorem not_roundTrips_examples :
    ¬ RoundTrips exampleRendering readDecimal [("scopes", .array [.null])] ∧
    ¬ RoundTrips exampleRendering readDecimal [("env", .object [("PATH", .null)])] ∧
    (∃ overrides, buildCodexMcpConfigOverrides [("a.b", .object [("command", .string "x")])] =
      some (.object overrides) ∧ ¬ RoundTrips exampleRendering readDecimal overrides) ∧
    ¬ RoundTrips exampleRendering readDecimal
      [("args", .array [.object [("é", .bool true)]])] ∧
    ¬ RoundTrips exampleRendering readDecimal
      [("args", .array [.object [("a\nb", .bool true)]])] ∧
    ¬ RoundTrips exampleRendering readDecimal [("cwd", .string "\x7f")] := by
  unfold RoundTrips
  refine ⟨?_, ?_, ⟨_, rfl, ?_⟩, ?_, ?_, ?_⟩
  all_goals decide +kernel

end Codex

end HarnessAgent
