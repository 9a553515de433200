import HarnessAgent.Foundation.JsonCodec
import Mathlib.Logic.Equiv.Defs

/-! # Records in JSON

A record is given by its fields: the name of each, how it is read, what it is when nothing is
there, and when it is not written. It is read from an object by the names, or from an array by
the positions. Fields that are exact make an exact record.
-/

namespace HarnessAgent

/-! ## Fields -/

structure Field (α : Type) where
  name : String
  codec : Codec α
  /-- What the field is without a member of its name. -/
  absent : Option α
  /-- What the field is where an array ends before it. -/
  short : Option α
  skips : α → Bool

namespace Field

variable {α : Type}

def read (field : Field α) : Option Value → Option α
  | none => field.absent
  | some json => field.codec.decode json

def Writes (field : Field α) (value : α) (written : Option Value) : Prop :=
  if field.skips value then written = none
  else ∃ json, written = some json ∧ field.codec.Writes value json

/-- The field is what the part of a value says, or what it is without one. -/
def ReadFrom (field : Field α) (part : Option Value) (value : α) : Prop :=
  field.absent = some value ∨ field.short = some value ∨
    ∃ json, part = some json ∧ field.codec.decode json = some value

def Gives (field : Field α) (value : α) : Prop :=
  ∃ part, field.ReadFrom part value

def Back (field : Field α) (value again : α) : Prop :=
  ∀ written, field.Writes value written → field.read written = some again

class Total (field : Field α) : Prop where
  writes : ∀ value, ∃ written, field.Writes value written

class Exact (field : Field α) : Prop extends field.Total where
  back : ∀ {value}, field.Gives value → field.Back value value

variable {member : Option Value} {value : α} {field : Field α}

theorem readFrom_of_read (read : field.read member = some value) : field.ReadFrom member value := by
  cases member with
  | none => exact .inl read
  | some json => exact .inr (.inr ⟨json, rfl, read⟩)

theorem gives_of_read (read : field.read member = some value) : field.Gives value :=
  ⟨member, readFrom_of_read read⟩

theorem exists_writes (total : ∀ value, ∃ json, field.codec.Writes value json) (value : α) :
    ∃ written, field.Writes value written := by
  by_cases skips : field.skips value = true
  · exact ⟨none, (if_pos skips).mpr rfl⟩
  · rcases total value with ⟨json, written⟩
    exact ⟨some json, (if_neg skips).mpr ⟨json, rfl, written⟩⟩

/-! ### Kinds of fields -/

def required (name : String) (codec : Codec α) : Field α where
  name := name
  codec := codec
  absent := none
  short := none
  skips _ := false

variable {codec : Codec α} {name : String}

theorem ReadFrom.required {part : Option Value}
    (reads : (required name codec).ReadFrom part value) :
    ∃ json, part = some json ∧ codec.decode json = some value := by
  rcases reads with absent | short | own
  · cases absent
  · cases short
  · exact own

theorem back_required (back : codec.Back value again) : (required name codec).Back value again := by
  intro written writes
  rcases writes with ⟨json, rfl, writes⟩
  exact back json writes

instance (name : String) (codec : Codec α) [codec.Total] : (required name codec).Total where
  writes := exists_writes codec.exists_written

instance (name : String) (codec : Codec α) [codec.Exact] : (required name codec).Exact where
  back := by
    intro value gives
    rcases gives with ⟨part, reads⟩
    rcases ReadFrom.required reads with ⟨json, -, read⟩
    exact back_required (codec.back_of_decode read)

def nullable (codec : Codec α) : Codec (Option α) where
  decode json := if json.isNull then some none else (codec.decode json).map some
  Writes value json :=
    match value with
    | none => json = .null
    | some value => codec.Writes value json

/-- A field that may be missing, and is not written without a value. -/
def optional (name : String) (codec : Codec α) : Field (Option α) where
  name := name
  codec := nullable codec
  absent := some none
  short := none
  skips := Option.isNone

theorem back_none : (optional name codec).Back none none := by
  intro written writes
  cases (show written = none from writes)
  rfl

theorem read_optional [codec.NotNull] (read : codec.decode json = some value) :
    (optional name codec).read (some json) = some (some value) := by
  have notNull : json.isNull = false := by
    cases json with
    | null =>
        rw [Codec.NotNull.decode_null] at read
        cases read
    | _ => rfl
  change (if json.isNull then some none else (codec.decode json).map some) = _
  rw [notNull, if_neg Bool.false_ne_true, read]
  rfl

theorem back_some [codec.NotNull] (back : codec.Back value again) :
    (optional name codec).Back (some value) (some again) := by
  intro written writes
  rcases writes with ⟨json, rfl, writes⟩
  exact read_optional (back json writes)

theorem read_optional_eq_some (read : (optional name codec).read member = some (some value)) :
    ∃ json, member = some json ∧ json.isNull = false ∧ codec.decode json = some value := by
  cases member with
  | none => cases read
  | some json =>
      change (if json.isNull then some none else (codec.decode json).map some) = _ at read
      split at read
      · cases read
      · next notNull =>
          rcases Option.map_eq_some_iff.mp read with ⟨own, decoded, same⟩
          cases same
          exact ⟨json, rfl, Bool.not_eq_true _ ▸ notNull, decoded⟩

theorem read_optional_eq_none (read : (optional name codec).read member = some none) :
    member = none ∨ member = some .null := by
  cases member with
  | none => exact .inl rfl
  | some json =>
      right
      change (if json.isNull then some none else (codec.decode json).map some) = _ at read
      split at read
      · next isNull =>
          cases json with
          | null => rfl
          | _ => cases isNull
      · rcases Option.map_eq_some_iff.mp read with ⟨own, -, same⟩
        cases same

theorem ReadFrom.optional {part : Option Value}
    (reads : (optional name codec).ReadFrom part (some value)) :
    ∃ json, part = some json ∧ codec.decode json = some value := by
  rcases reads with absent | short | ⟨json, rfl, read⟩
  · cases absent
  · cases short
  · have member : (Field.optional name codec).read (some json) = some (some value) := read
    rcases read_optional_eq_some member with ⟨own, here, -, decoded⟩
    exact ⟨own, here, decoded⟩

instance (name : String) (codec : Codec α) [codec.Total] : (optional name codec).Total where
  writes := by
    apply exists_writes
    intro value
    cases value with
    | none => exact ⟨.null, rfl⟩
    | some value => exact codec.exists_written value

instance (name : String) (codec : Codec α) [codec.Exact] [codec.NotNull] :
    (optional name codec).Exact where
  back := by
    intro value gives
    cases value with
    | none => exact back_none
    | some value =>
        rcases gives with ⟨part, reads⟩
        rcases ReadFrom.optional reads with ⟨json, -, decoded⟩
        exact back_some (codec.back_of_decode decoded)

def orDefault (name : String) (codec : Codec α) (default : α) : Field α where
  name := name
  codec := codec
  absent := some default
  short := some default
  skips _ := false

theorem exact_orDefault {name : String} {codec : Codec α} [codec.Exact] {default : α}
    {sample : Value} (read : codec.decode sample = some default) :
    (orDefault name codec default).Exact where
  writes := exists_writes codec.exists_written
  back := by
    intro value gives written writes
    rcases writes with ⟨json, rfl, writes⟩
    rcases gives with ⟨part, absent | short | ⟨own, -, decoded⟩⟩
    · cases absent
      exact codec.back_of_decode read json writes
    · cases short
      exact codec.back_of_decode read json writes
    · exact codec.back_of_decode decoded json writes

def listOrEmpty (name : String) (codec : Codec α) : Field (List α) where
  name := name
  codec := codec.list
  absent := some []
  short := some []
  skips := List.isEmpty

instance (name : String) (codec : Codec α) [codec.Exact] : (listOrEmpty name codec).Exact where
  writes := exists_writes codec.list.exists_written
  back := by
    intro value gives written writes
    cases value with
    | nil =>
        cases (show written = none from writes)
        rfl
    | cons first rest =>
        rcases writes with ⟨json, rfl, writes⟩
        rcases gives with ⟨part, absent | short | ⟨own, -, decoded⟩⟩
        · cases absent
        · cases short
        · exact codec.list.back_of_decode decoded json writes

end Field

/-! ## Records -/

inductive Fields : List Type → Type 1
  | nil : Fields []
  | cons {α : Type} {types : List Type} (field : Field α) (rest : Fields types) :
      Fields (α :: types)

def Record : List Type → Type
  | [] => Unit
  | α :: types => α × Record types

namespace Fields

variable {types : List Type}

def names : {types : List Type} → Fields types → List String
  | _, .nil => []
  | _, .cons field rest => field.name :: rest.names

def decode (lookup : String → Option Value) : {types : List Type} → Fields types →
    Option (Record types)
  | _, .nil => some ()
  | _, .cons field rest => do
      let value ← field.read (lookup field.name)
      let values ← rest.decode lookup
      return (value, values)

def decodeItems : {types : List Type} → Fields types → List Value → Option (Record types)
  | _, .nil, [] => some ()
  | _, .nil, _ :: _ => none
  | _, .cons field rest, [] => do
      let value ← field.short
      let values ← rest.decodeItems []
      return (value, values)
  | _, .cons field rest, item :: items => do
      let value ← field.codec.decode item
      let values ← rest.decodeItems items
      return (value, values)

def Writes : {types : List Type} → Fields types → Record types → Members → Prop
  | _, .nil, _, members => members = []
  | _, .cons field rest, (value, values), members =>
      ∃ written others, field.Writes value written ∧ rest.Writes values others ∧
        members = written.toList.map (field.name, ·) ++ others

def Reads (lookup : String → Option Value) : {types : List Type} → Fields types → Record types →
    Prop
  | _, .nil, _ => True
  | _, .cons field rest, (value, values) =>
      field.read (lookup field.name) = some value ∧ rest.Reads lookup values

def Gives : {types : List Type} → Fields types → Record types → Prop
  | _, .nil, _ => True
  | _, .cons field rest, (value, values) => field.Gives value ∧ rest.Gives values

def Back : {types : List Type} → Fields types → Record types → Record types → Prop
  | _, .nil, _, _ => True
  | _, .cons field rest, (value, values), (again, others) =>
      field.Back value again ∧ rest.Back values others

class Total (fields : Fields types) : Prop where
  writes : ∀ record, ∃ members, fields.Writes record members

class Exact (fields : Fields types) : Prop extends fields.Total where
  back : ∀ {record}, fields.Gives record → fields.Back record record

instance : nil.Total where
  writes _ := ⟨[], rfl⟩

instance : nil.Exact where
  back _ := trivial

instance {α : Type} (field : Field α) (rest : Fields types) [own : field.Total]
    [remaining : rest.Total] : (cons field rest).Total where
  writes record := by
    rcases own.writes record.1 with ⟨written, writesOwn⟩
    rcases remaining.writes record.2 with ⟨others, writesRest⟩
    exact ⟨_, written, others, writesOwn, writesRest, rfl⟩

instance {α : Type} (field : Field α) (rest : Fields types) [own : field.Exact]
    [remaining : rest.Exact] : (cons field rest).Exact where
  back gives := ⟨own.back gives.1, remaining.back gives.2⟩

variable {fields : Fields types} {record : Record types} {lookup : String → Option Value}

theorem decode_eq_some_iff : fields.decode lookup = some record ↔ fields.Reads lookup record := by
  induction fields with
  | nil => exact iff_of_true rfl trivial
  | cons field rest induction =>
      rcases record with ⟨value, values⟩
      rw [decode, Reads, ← induction]
      constructor
      · intro read
        rcases Option.bind_eq_some_iff.mp read with ⟨own, first, others⟩
        rcases Option.bind_eq_some_iff.mp others with ⟨remaining, following, whole⟩
        cases whole
        exact ⟨first, following⟩
      · intro parts
        rw [parts.1, parts.2]
        rfl

def Parts (part : String → Nat → Option Value) : {types : List Type} → Nat → Fields types →
    Record types → Prop
  | _, _, .nil, _ => True
  | _, position, .cons field rest, (value, values) =>
      field.ReadFrom (part field.name position) value ∧ rest.Parts part (position + 1) values

theorem Reads.parts (reads : fields.Reads lookup record) (position : Nat) :
    fields.Parts (fun name _ => lookup name) position record := by
  induction fields generalizing position with
  | nil => trivial
  | cons field rest induction => exact ⟨Field.readFrom_of_read reads.1, induction reads.2 _⟩

theorem parts_of_decodeItems {items all : List Value}
    (read : fields.decodeItems items = some record) {position : Nat}
    (suffix : ∀ index, all[position + index]? = items[index]?) :
    fields.Parts (fun _ place => all[place]?) position record := by
  induction fields generalizing items position with
  | nil => trivial
  | cons field rest induction =>
      cases items with
      | nil =>
          rcases Option.bind_eq_some_iff.mp read with ⟨own, first, others⟩
          rcases Option.bind_eq_some_iff.mp others with ⟨remaining, following, whole⟩
          cases whole
          refine ⟨.inr (.inl first), induction following ?_⟩
          intro index
          rw [Nat.add_assoc, suffix]
          rfl
      | cons item items =>
          rcases Option.bind_eq_some_iff.mp read with ⟨own, first, others⟩
          rcases Option.bind_eq_some_iff.mp others with ⟨remaining, following, whole⟩
          cases whole
          refine ⟨.inr (.inr ⟨item, suffix 0, first⟩), induction following ?_⟩
          intro index
          rw [Nat.add_assoc, suffix, Nat.add_comm 1 index]
          rfl

theorem Parts.gives {part : String → Nat → Option Value} (parts : fields.Parts part position record) :
    fields.Gives record := by
  induction fields generalizing position with
  | nil => trivial
  | cons field rest induction => exact ⟨⟨_, parts.1⟩, induction parts.2⟩

/-! ### Reading what was written -/

variable {members : Members}

theorem writes_skip {α : Type} {field : Field α} {rest : Fields types} {value : α}
    {values : Record types} (skips : field.skips value = true)
    (written : rest.Writes values members) : (cons field rest).Writes (value, values) members :=
  ⟨none, members, (if_pos skips).mpr rfl, written, rfl⟩

theorem Writes.get_eq_none (written : fields.Writes record members) {name : String}
    (foreign : name ∉ fields.names) : members.get name = none := by
  induction fields generalizing members with
  | nil =>
      cases (show members = [] from written)
      rfl
  | cons field rest induction =>
      rcases written with ⟨own, others, -, remaining, rfl⟩
      rcases not_or.mp (mt List.mem_cons.mpr foreign) with ⟨different, notRest⟩
      rw [Members.get_append, induction remaining notRest, Option.or_none]
      cases own with
      | none => rfl
      | some json =>
          change Members.get [(field.name, json)] name = none
          rw [Members.get_cons, if_neg different]
          rfl

theorem Writes.reads (written : fields.Writes record members) (distinct : fields.names.Nodup)
    (back : fields.Back record again) (same : ∀ name ∈ fields.names, lookup name = members.get name) :
    fields.Reads lookup again := by
  induction fields generalizing members with
  | nil => trivial
  | cons field rest induction =>
      rcases written with ⟨own, others, first, remaining, rfl⟩
      rcases List.nodup_cons.mp distinct with ⟨new, distinctRest⟩
      constructor
      · have found : lookup field.name = own := by
          rw [same _ List.mem_cons_self, Members.get_append, remaining.get_eq_none new,
            Option.or_none]
          cases own with
          | none => rfl
          | some json =>
              change Members.get [(field.name, json)] field.name = some json
              rw [Members.get_cons, if_pos rfl]
        rw [found]
        exact back.1 own first
      · apply induction remaining distinctRest back.2
        intro name member
        have different : name ≠ field.name := fun equal => new (equal ▸ member)
        rw [same name (List.mem_cons_of_mem _ member), Members.get_append]
        cases own with
        | none => rfl
        | some json =>
            change (Members.get [(field.name, json)] name).or _ = _
            rw [Members.get_cons, if_neg different]
            rfl

end Fields

namespace Codec

variable {α : Type} {types : List Type}

def record (fields : Fields types) (layout : α ≃ Record types) : Codec α where
  decode
    | .object members => (fields.decode (Members.get members)).map layout.symm
    | .array items => (fields.decodeItems items).map layout.symm
    | _ => none
  Writes value json := ∃ members, fields.Writes (layout value) members ∧ json = .object members

def part (json : Value) (name : String) (position : Nat) : Option Value :=
  match json with
  | .object members => Members.get members name
  | .array items => items[position]?
  | _ => none

variable {fields : Fields types} {layout : α ≃ Record types}

theorem parts_of_decode_record {json : Value}
    (read : (record fields layout).decode json = some value) :
    fields.Parts (part json) 0 (layout value) := by
  cases json with
  | object members =>
      rcases Option.map_eq_some_iff.mp read with ⟨own, decoded, rfl⟩
      rw [layout.apply_symm_apply]
      exact (Fields.decode_eq_some_iff.mp decoded).parts 0
  | array items =>
      rcases Option.map_eq_some_iff.mp read with ⟨own, decoded, rfl⟩
      rw [layout.apply_symm_apply]
      exact Fields.parts_of_decodeItems decoded fun index => by rw [Nat.zero_add]
  | _ => cases read

theorem gives_of_decode_record (read : (record fields layout).decode json = some value) :
    fields.Gives (layout value) :=
  (parts_of_decode_record read).gives

theorem back_record (distinct : fields.names.Nodup)
    (back : fields.Back (layout value) (layout again)) :
    (record fields layout).Back value again := by
  intro json written
  rcases written with ⟨members, written, rfl⟩
  have reads := written.reads distinct back fun _ _ => rfl
  change (fields.decode (Members.get members)).map layout.symm = _
  rw [Fields.decode_eq_some_iff.mpr reads, Option.map_some, layout.symm_apply_apply]

instance (fields : Fields types) [total : fields.Total] (layout : α ≃ Record types) :
    (record fields layout).Total where
  writes value := by
    rcases total.writes (layout value) with ⟨members, written⟩
    exact ⟨_, members, written, rfl⟩

theorem exact_record [exact : fields.Exact] (distinct : fields.names.Nodup) :
    (record fields layout).Exact where
  back read := back_record distinct (exact.back (gives_of_decode_record read))

instance (fields : Fields types) (layout : α ≃ Record types) : (record fields layout).NotNull :=
  ⟨rfl⟩

/-! ### Records with other members -/

def others (fields : Fields types) (members : Members) : Members :=
  List.filter (fun member => member.1 ∉ fields.names) members

def openRecord (fields : Fields types) (layout : α ≃ Record types × Members) : Codec α where
  decode
    | .object members =>
        (fields.decode (Members.get members)).map fun record =>
          layout.symm (record, others fields members)
    | _ => none
  Writes value json :=
    ∃ members, fields.Writes (layout value).1 members ∧
      json = .object (members ++ (layout value).2)

theorem get_others (members : Members) {name : String} (known : name ∈ fields.names) :
    Members.get (others fields members) name = none := by
  apply Members.get_eq_none_of_not_mem_keys
  intro member
  rcases List.mem_map.mp member with ⟨own, inOthers, rfl⟩
  exact of_decide_eq_true (List.mem_filter.mp inOthers).2 known

theorem others_others (fields : Fields types) (members : Members) :
    others fields (others fields members) = others fields members := by
  rw [others, others, List.filter_filter]
  apply List.filter_congr
  intro member _
  rw [Bool.and_self]

theorem others_written {record : Record types} (written : fields.Writes record members) :
    others fields members = [] := by
  apply List.filter_eq_nil_iff.mpr
  intro member inMembers
  rw [decide_eq_true_eq, not_not]
  by_contra foreign
  have absent := written.get_eq_none foreign
  rw [Members.get, List.lookup_eq_none_iff] at absent
  have apart := absent member inMembers
  rw [bne_self_eq_false] at apart
  cases apart

theorem exact_openRecord [exact : fields.Exact] {layout : α ≃ Record types × Members}
    (distinct : fields.names.Nodup) :
    (openRecord fields layout).Exact where
  writes value := by
    rcases exact.writes (layout value).1 with ⟨members, written⟩
    exact ⟨_, members, written, rfl⟩
  back := by
    intro json value read again written
    cases json with
    | object given =>
        rcases Option.map_eq_some_iff.mp read with ⟨record, decoded, rfl⟩
        rcases written with ⟨members, written, rfl⟩
        rw [layout.apply_symm_apply] at written ⊢
        dsimp only at written ⊢
        have gives := ((Fields.decode_eq_some_iff.mp decoded).parts 0).gives
        have same : ∀ name ∈ fields.names,
            Members.get (members ++ others fields given) name = Members.get members name := by
          intro name known
          rw [Members.get_append, get_others given known, Option.or_none]
        have reads := written.reads distinct (exact.back gives) same
        change (fields.decode _).map _ = _
        rw [Fields.decode_eq_some_iff.mpr reads, Option.map_some]
        apply congrArg (fun rest => some (layout.symm (record, rest)))
        rw [others, List.filter_append, ← others, ← others, others_written written,
          others_others, List.nil_append]
    | _ => cases read

instance (fields : Fields types) (layout : α ≃ Record types × Members) :
    (openRecord fields layout).NotNull := ⟨rfl⟩

end Codec

end HarnessAgent
