import HarnessAgent.Foundation.IterationOrder
import HarnessAgent.Foundation.Json
import HarnessAgent.Foundation.Text

/-! # Reading and writing JSON by types

How values of a type are read from JSON, and what may be written for them: a map without an
order is written in any order. A codec is exact if whatever is written for a value that has
been read is read as this value again. Records are read from objects by names, and from arrays
by positions.
-/

namespace HarnessAgent

open IterationOrder

structure Codec (α : Type) where
  decode : Value → Option α
  Writes : α → Value → Prop

namespace Codec

variable {α β κ : Type}

/-- Whatever is written for the first value is read as the second one. -/
def Back (codec : Codec α) (value again : α) : Prop :=
  ∀ json, codec.Writes value json → codec.decode json = some again

class Total (codec : Codec α) : Prop where
  writes : ∀ value, ∃ json, codec.Writes value json

class Exact (codec : Codec α) : Prop extends codec.Total where
  back : ∀ {json value}, codec.decode json = some value → codec.Back value value

class NotNull (codec : Codec α) : Prop where
  decode_null : codec.decode .null = none

theorem exists_written (codec : Codec α) [total : codec.Total] (value : α) :
    ∃ json, codec.Writes value json :=
  total.writes value

variable {json : Value}

theorem back_of_decode (codec : Codec α) [exact : codec.Exact]
    (read : codec.decode json = some value) : codec.Back value value :=
  exact.back read

/-! ## Values without parts -/

def writing (decode : Value → Option α) (encode : α → Value) : Codec α where
  decode := decode
  Writes value json := json = encode value

theorem exact_writing {decode : Value → Option α}
    (back : ∀ {json value}, decode json = some value → decode (encode value) = some value) :
    (writing decode encode).Exact where
  writes value := ⟨_, rfl⟩
  back := by
    intro json value read again written
    rw [written]
    exact back read

def text : Codec String := writing Value.asStr .string

def flag : Codec Bool := writing Value.asBool .bool

def anything : Codec Value := writing some id

def object : Codec Members := writing Value.asObject .object

def natural (bound : Nat) : Codec Nat :=
  writing (fun json => json.asU64.filter (· < bound)) fun value => .number (.posInt value)

def float : Codec F64 :=
  writing (fun json => json.asF64.filter (·.isFinite)) fun value =>
    if value.isFinite then .number (.float value) else .null

def trimmedText : Codec String := writing (fun json => json.asStr.map (·.trimmed)) .string

theorem trimmed_trimmed (text : String) : text.trimmed.trimmed = text.trimmed := by
  rw [String.trimmed, String.trimmed, String.toList_ofList, Text.trim_trim]

instance : text.Exact := exact_writing fun _ => rfl

instance : text.NotNull := ⟨rfl⟩

instance : flag.Exact := exact_writing fun _ => rfl

instance : flag.NotNull := ⟨rfl⟩

instance : anything.Exact := exact_writing fun _ => rfl

instance : object.Exact := exact_writing fun _ => rfl

instance : object.NotNull := ⟨rfl⟩

instance (bound : Nat) : (natural bound).Exact := by
  apply exact_writing
  intro json value read
  have small := (Option.filter_eq_some_iff.mp read).2
  exact Option.filter_eq_some_iff.mpr ⟨rfl, small⟩

instance (bound : Nat) : (natural bound).NotNull := ⟨rfl⟩

theorem decode_natural (read : (natural bound).decode json = some value) :
    json = .number (.posInt value) ∧ value < bound := by
  rcases Option.filter_eq_some_iff.mp read with ⟨found, small⟩
  refine ⟨?_, of_decide_eq_true small⟩
  unfold Value.asU64 at found
  split at found
  · cases found
    rfl
  · cases found

instance : float.Exact := by
  apply exact_writing
  intro json value read
  have finite := (Option.filter_eq_some_iff.mp read).2
  rw [if_pos finite]
  exact Option.filter_eq_some_iff.mpr ⟨rfl, finite⟩

instance : float.NotNull := ⟨rfl⟩

instance : trimmedText.Exact := by
  apply exact_writing
  intro json value read
  rcases Option.map_eq_some_iff.mp read with ⟨given, -, rfl⟩
  exact congrArg some (trimmed_trimmed given)

instance : trimmedText.NotNull := ⟨rfl⟩

/-! ## Names -/

/-- One of several names, as a text or as an object with a single member that holds nothing. -/
def enumeration (all : List α) (name : α → String) (holdsNothing : Value → Bool) : Codec α :=
  let named (text : String) : Option α := all.find? fun value => name value = text
  writing
    (fun json =>
      match json with
      | .string text => named text
      | .object [(text, payload)] => if holdsNothing payload then named text else none
      | _ => none)
    fun value => .string (name value)

theorem exact_enumeration {all : List α} {name : α → String} {holdsNothing : Value → Bool}
    (named : ∀ value, all.find? (fun other => name other = name value) = some value) :
    (enumeration all name holdsNothing).Exact :=
  exact_writing fun {_ value} _ => named value

instance (all : List α) (name : α → String) (holdsNothing : Value → Bool) :
    (enumeration all name holdsNothing).NotNull := ⟨rfl⟩

/-! ## Lists -/

def decodeAll (decode : α → Option β) : List α → Option (List β)
  | [] => some []
  | item :: items => do
      let value ← decode item
      let values ← decodeAll decode items
      return value :: values

theorem decodeAll_eq_some_iff {decode : α → Option β} {items : List α} {values : List β} :
    decodeAll decode items = some values ↔
      List.Forall₂ (fun item value => decode item = some value) items values := by
  induction items generalizing values with
  | nil => rw [decodeAll, List.forall₂_nil_left_iff, Option.some.injEq, eq_comm]
  | cons item items induction =>
      rw [decodeAll, List.forall₂_cons_left_iff]
      constructor
      · intro read
        rcases Option.bind_eq_some_iff.mp read with ⟨value, first, others⟩
        rcases Option.bind_eq_some_iff.mp others with ⟨rest, remaining, whole⟩
        cases whole
        exact ⟨value, rest, first, induction.mp remaining, rfl⟩
      · intro parts
        rcases parts with ⟨value, rest, first, remaining, rfl⟩
        rw [first, induction.mpr remaining]
        rfl

def list (codec : Codec α) : Codec (List α) where
  decode json := json.asArray.bind (decodeAll codec.decode)
  Writes values json := ∃ items, List.Forall₂ codec.Writes values items ∧ json = .array items

theorem exists_forall₂ {relation : α → β → Prop} (total : ∀ value, ∃ other, relation value other)
    (values : List α) : ∃ others, List.Forall₂ relation values others := by
  induction values with
  | nil => exact ⟨[], .nil⟩
  | cons value values induction =>
      rcases total value with ⟨other, related⟩
      rcases induction with ⟨others, rest⟩
      exact ⟨other :: others, .cons related rest⟩

instance (codec : Codec α) [codec.Exact] : codec.list.Exact where
  writes values := by
    rcases exists_forall₂ codec.exists_written values with ⟨items, written⟩
    exact ⟨_, items, written, rfl⟩
  back := by
    intro json values read again written
    rcases written with ⟨items, written, rfl⟩
    rcases Option.bind_eq_some_iff.mp read with ⟨given, -, decoded⟩
    apply decodeAll_eq_some_iff.mpr
    have each := List.forall₂_iff_get.mp (decodeAll_eq_some_iff.mp decoded)
    have parts := List.forall₂_iff_get.mp written
    apply List.forall₂_iff_get.mpr
    refine ⟨parts.1.symm, ?_⟩
    intro index inItems inValues
    exact codec.back_of_decode (each.2 index (by omega) inValues) _
      (parts.2 index inValues inItems)

instance (codec : Codec α) : codec.list.NotNull := ⟨rfl⟩

/-! ## Maps without an order -/

structure KeyText (κ : Type) where
  read : String → Option κ
  print : κ → String
  read_print : ∀ key, read (print key) = some key

def KeyText.texts : KeyText String where
  read := some
  print := id
  read_print _ := rfl

def knownEntries (keys : KeyText κ) (entries : List (String × α)) : List (Sigma fun _ : κ => α) :=
  entries.filterMap fun entry => (keys.read entry.1).map fun key => ⟨key, entry.2⟩

def decodeMember (codec : Codec α) (member : String × Value) : Option (String × α) :=
  (codec.decode member.2).map fun value => (member.1, value)

variable [DecidableEq κ]

/-- All values are read, also those of unknown keys. -/
def dictionary (keys : KeyText κ) (codec : Codec α) : Codec (Dictionary κ α) where
  decode json := do
    let members ← json.asObject
    let entries ← decodeAll codec.decodeMember members
    return (knownEntries keys entries).toFinmap
  Writes map json :=
    ∃ pass : Pass κ α, Meets pass map ∧ ∃ members : Members,
      List.Forall₂ (fun entry member => member.1 = keys.print entry.1 ∧
        codec.Writes entry.2 member.2) pass.entries members ∧ json = .object members

variable {codec : Codec α}

theorem dlookup_knownEntries {keys : KeyText κ}
    (parts : List.Forall₂ (fun member entry => codec.decodeMember member = some entry) members
      entries) (key : κ) :
    (knownEntries keys entries).dlookup key =
      (List.find? (fun member => keys.read member.1 = some key) members).bind fun member =>
        codec.decode member.2 := by
  induction parts with
  | nil => rfl
  | @cons member entry members entries own others induction =>
      rcases Option.map_eq_some_iff.mp own with ⟨value, readOne, rfl⟩
      rw [knownEntries, List.filterMap_cons]
      cases parsed : keys.read member.1 with
      | none =>
          rw [List.find?_cons_of_neg (by simp [parsed])]
          exact induction
      | some other =>
          dsimp only [Option.map_some]
          by_cases same : key = other
          · subst same
            rw [List.dlookup_cons_eq, List.find?_cons_of_pos (by simp [parsed]), Option.bind_some,
              readOne]
          · rw [List.dlookup_cons_ne _ _ same, List.find?_cons_of_neg]
            · exact induction
            · simpa [parsed] using Ne.symm same

theorem find_of_lookup_dictionary {keys : KeyText κ} {map : Dictionary κ α}
    (read : (dictionary keys codec).decode json = some map) {key : κ} {value : α}
    (found : map.lookup key = some value) :
    ∃ members, json = .object members ∧ ∃ member,
      List.find? (fun member => keys.read member.1 = some key) members = some member ∧
        codec.decode member.2 = some value := by
  rcases Option.bind_eq_some_iff.mp read with ⟨members, isObject, rest⟩
  rcases Option.bind_eq_some_iff.mp rest with ⟨entries, decoded, whole⟩
  cases whole
  refine ⟨members, ?_, ?_⟩
  · unfold Value.asObject at isObject
    split at isObject
    · cases isObject
      rfl
    · cases isObject
  · rw [Finmap.dlookup_list_toFinmap,
      dlookup_knownEntries (decodeAll_eq_some_iff.mp decoded)] at found
    exact Option.bind_eq_some_iff.mp found

theorem get_of_lookup_dictionary {map : Dictionary String α}
    (read : (dictionary .texts codec).decode json = some map) {key : String} {value : α}
    (found : map.lookup key = some value) :
    ∃ shown, json.get key = some shown ∧ codec.decode shown = some value := by
  rcases find_of_lookup_dictionary read found with ⟨members, rfl, ⟨name, shown⟩, first, readOne⟩
  refine ⟨shown, ?_, readOne⟩
  change Members.get members key = some shown
  clear read
  induction members with
  | nil => cases first
  | cons member members induction =>
      rw [Members.get_cons]
      by_cases same : key = member.1
      · rw [List.find?_cons_of_pos (by simp [KeyText.texts, same])] at first
        rw [if_pos same, Option.some.inj first]
      · rw [List.find?_cons_of_neg (by simpa [KeyText.texts] using Ne.symm same)] at first
        rw [if_neg same]
        exact induction first

instance (keys : KeyText κ) (codec : Codec α) [codec.Exact] : (dictionary keys codec).Exact where
  writes map := by
    rcases exists_meets map with ⟨pass, meets⟩
    have total : ∀ entry : Sigma fun _ : κ => α, ∃ member : String × Value,
        member.1 = keys.print entry.1 ∧ codec.Writes entry.2 member.2 := by
      intro entry
      rcases codec.exists_written entry.2 with ⟨json, written⟩
      exact ⟨(keys.print entry.1, json), rfl, written⟩
    rcases exists_forall₂ total pass.entries with ⟨members, written⟩
    exact ⟨_, pass, meets, members, written, rfl⟩
  back := by
    intro json map read again written
    rcases written with ⟨pass, meets, members, written, rfl⟩
    have decoded : ∀ entries : List (Sigma fun _ : κ => α), ∀ members : Members,
        (∀ entry ∈ entries, entry ∈ pass.entries) →
        List.Forall₂ (fun entry member => member.1 = keys.print entry.1 ∧
          codec.Writes entry.2 member.2) entries members →
        ∃ texts, decodeAll codec.decodeMember members = some texts ∧
          knownEntries keys texts = entries := by
      intro entries members inPass written
      induction written with
      | nil => exact ⟨[], rfl, rfl⟩
      | @cons entry member entries members own others induction =>
          rcases induction fun other inRest => inPass other (List.mem_cons_of_mem _ inRest) with
            ⟨texts, rest, known⟩
          have found := meets.mem_iff.mp (inPass entry List.mem_cons_self)
          rcases find_of_lookup_dictionary read found with ⟨_, _, _, _, readOne⟩
          have back := codec.back_of_decode readOne _ own.2
          refine ⟨(member.1, entry.2) :: texts, ?_, ?_⟩
          · rw [decodeAll, decodeMember, back, rest]
            rfl
          · rw [knownEntries, List.filterMap_cons, ← knownEntries, known, own.1, keys.read_print]
            rfl
    rcases decoded pass.entries members (fun _ member => member) written with ⟨texts, all, known⟩
    change (decodeAll codec.decodeMember members).bind _ = _
    rw [all, Option.bind_some, known]
    apply congrArg some
    rw [← meets]
    apply Finmap.ext_lookup
    intro key
    rw [Finmap.dlookup_list_toFinmap, Finmap.lookup_toFinmap, AList.lookup]

instance (keys : KeyText κ) (codec : Codec α) : (dictionary keys codec).NotNull := ⟨rfl⟩

end Codec

end HarnessAgent
