import HarnessAgent.Foundation.Float64

/-! # JSON documents

The value type of the JSON library used throughout the repository, together
with the two ways in which the supported databases merge one object into
another. Objects keep their members in order; lookup takes the first member
with a given key.
-/

namespace HarnessAgent

inductive Number
  | posInt (value : Nat)
  | negInt (magnitude : Nat)
  | float (value : F64)
  deriving DecidableEq, Repr

def Number.asF64 : Number → F64
  | .posInt value => F64.ofRat value
  | .negInt magnitude => F64.ofRat (-(magnitude : Rat))
  | .float value => value

inductive Value
  | null
  | bool (value : Bool)
  | number (value : Number)
  | string (value : String)
  | array (items : List Value)
  | object (members : List (String × Value))
  deriving Repr, Inhabited

abbrev Members := List (String × Value)

namespace Value

mutual
def decEq : (left right : Value) → Decidable (left = right)
  | .null, .null => isTrue rfl
  | .bool left, .bool right =>
      if equal : left = right then isTrue (by rw [equal])
      else isFalse fun same => equal (Value.bool.inj same)
  | .number left, .number right =>
      if equal : left = right then isTrue (by rw [equal])
      else isFalse fun same => equal (Value.number.inj same)
  | .string left, .string right =>
      if equal : left = right then isTrue (by rw [equal])
      else isFalse fun same => equal (Value.string.inj same)
  | .array left, .array right =>
      match decEqItems left right with
      | isTrue equal => isTrue (by rw [equal])
      | isFalse different => isFalse fun same => different (Value.array.inj same)
  | .object left, .object right =>
      match decEqMembers left right with
      | isTrue equal => isTrue (by rw [equal])
      | isFalse different => isFalse fun same => different (Value.object.inj same)
  | .null, .bool _ | .null, .number _ | .null, .string _ | .null, .array _
  | .null, .object _ | .bool _, .null | .bool _, .number _ | .bool _, .string _
  | .bool _, .array _ | .bool _, .object _ | .number _, .null | .number _, .bool _
  | .number _, .string _ | .number _, .array _ | .number _, .object _
  | .string _, .null | .string _, .bool _ | .string _, .number _
  | .string _, .array _ | .string _, .object _ | .array _, .null
  | .array _, .bool _ | .array _, .number _ | .array _, .string _
  | .array _, .object _ | .object _, .null | .object _, .bool _
  | .object _, .number _ | .object _, .string _ | .object _, .array _ =>
      isFalse nofun

def decEqItems : (left right : List Value) → Decidable (left = right)
  | [], [] => isTrue rfl
  | [], _ :: _ => isFalse nofun
  | _ :: _, [] => isFalse nofun
  | left :: lefts, right :: rights =>
      match decEq left right, decEqItems lefts rights with
      | isTrue head, isTrue tail => isTrue (by rw [head, tail])
      | isFalse different, _ => isFalse fun same => different (List.cons.inj same).1
      | _, isFalse different => isFalse fun same => different (List.cons.inj same).2

def decEqMembers : (left right : List (String × Value)) → Decidable (left = right)
  | [], [] => isTrue rfl
  | [], _ :: _ => isFalse nofun
  | _ :: _, [] => isFalse nofun
  | (leftKey, left) :: lefts, (rightKey, right) :: rights =>
      match decEq left right, decEqMembers lefts rights with
      | isTrue head, isTrue tail =>
          if key : leftKey = rightKey then isTrue (by rw [key, head, tail])
          else isFalse fun same => key (Prod.mk.inj (List.cons.inj same).1).1
      | isFalse different, _ =>
          isFalse fun same => different (Prod.mk.inj (List.cons.inj same).1).2
      | _, isFalse different => isFalse fun same => different (List.cons.inj same).2
end

instance : DecidableEq Value := decEq

def asObject : Value → Option Members
  | .object members => some members
  | _ => none

def asStr : Value → Option String
  | .string text => some text
  | _ => none

def asArray : Value → Option (List Value)
  | .array items => some items
  | _ => none

def asBool : Value → Option Bool
  | .bool value => some value
  | _ => none

def asF64 : Value → Option F64
  | .number value => some value.asF64
  | _ => none

def asU64 : Value → Option Nat
  | .number (.posInt value) => some value
  | _ => none

def asI64 : Value → Option Int
  | .number (.posInt value) => if value < 2 ^ 63 then some value else none
  | .number (.negInt magnitude) => some (-(magnitude : Int))
  | _ => none

def isNull : Value → Bool
  | .null => true
  | _ => false

def get (value : Value) (key : String) : Option Value :=
  value.asObject.bind fun members => List.lookup key members

def index (value : Value) (key : String) : Value :=
  (value.get key).getD .null

def getStr (value : Value) (key : String) : Option String :=
  (value.get key).bind asStr

def getArray (value : Value) (key : String) : Option (List Value) :=
  (value.get key).bind asArray

end Value

namespace Members

def get (members : Members) (key : String) : Option Value :=
  List.lookup key members

def getStr (members : Members) (key : String) : Option String :=
  (members.get key).bind Value.asStr

def getObject (members : Members) (key : String) : Option Members :=
  (members.get key).bind Value.asObject

/-- Replace the member of the given key in place, or append a new member. -/
def insert (members : Members) (key : String) (value : Value) : Members :=
  match members with
  | [] => [(key, value)]
  | (other, old) :: rest =>
      if other = key then (key, value) :: rest
      else (other, old) :: Members.insert rest key value

def remove (members : Members) (key : String) : Members :=
  List.filter (fun member => member.1 ≠ key) members

@[simp] theorem get_nil (key : String) : Members.get [] key = none := rfl

theorem get_cons (other key : String) (value : Value) (rest : Members) :
    Members.get ((other, value) :: rest) key =
      if key = other then some value else Members.get rest key := by
  by_cases equal : key = other
  · simp [get, equal]
  · have different : (key == other) = false := by simpa using equal
    simp [get, List.lookup_cons, different, equal]

theorem get_append (left right : Members) (key : String) :
    Members.get (left ++ right) key = (left.get key).or (right.get key) :=
  List.lookup_append

variable (members : Members)

theorem get_insert (inserted key : String) (value : Value) :
    (members.insert inserted value).get key =
      if key = inserted then some value else members.get key := by
  induction members with
  | nil => simp [insert, get_cons]
  | cons member rest induction =>
      rcases member with ⟨other, old⟩
      rw [insert]
      by_cases equal : other = inserted
      · subst other
        simp only [if_true, get_cons]
        by_cases same : key = inserted <;> simp [same]
      · simp only [if_neg equal, get_cons, induction]
        by_cases same : key = other
        · subst key
          simp [equal]
        · simp [same]

@[simp] theorem get_insert_same (key : String) (value : Value) :
    (members.insert key value).get key = some value := by
  simp [get_insert]

theorem get_insert_other (value : Value) (different : key ≠ inserted) :
    (members.insert inserted value).get key = members.get key := by
  simp [get_insert, different]

theorem get_remove (removed key : String) :
    (members.remove removed).get key =
      if key = removed then none else members.get key := by
  induction members with
  | nil => simp [remove]
  | cons member rest induction =>
      rcases member with ⟨other, old⟩
      rw [remove] at induction ⊢
      by_cases equal : other = removed
      · subst other
        simp only [List.filter_cons, ne_eq, not_true_eq_false, decide_false,
          Bool.false_eq_true, if_false, induction, get_cons]
        by_cases same : key = removed <;> simp [same]
      · simp only [List.filter_cons, ne_eq, equal, not_false_eq_true, decide_true,
          if_true, get_cons, induction]
        by_cases same : key = other
        · subst key
          simp [equal]
        · simp [same]

end Members

namespace Members

def concat (members : Members) : Members → Members
  | [] => members
  | (key, value) :: rest => Members.concat (members.insert key value) rest

def keys (members : Members) : List String :=
  List.map Prod.fst members

theorem get_eq_none_of_not_mem_keys {members : Members} (absent : key ∉ members.keys) :
    members.get key = none := by
  induction members with
  | nil => rfl
  | cons member rest induction =>
      rcases member with ⟨other, value⟩
      have parts : key ≠ other ∧ key ∉ Members.keys rest := by
        simpa [keys] using absent
      rw [get_cons, if_neg parts.1]
      exact induction parts.2

theorem get_concat {members : Members} (nodup : update.keys.Nodup) (key : String) :
    (members.concat update).get key = (update.get key).or (members.get key) := by
  induction update generalizing members with
  | nil => simp [concat]
  | cons member rest induction =>
      rcases member with ⟨other, value⟩
      have parts : other ∉ Members.keys rest ∧ (Members.keys rest).Nodup := by
        simpa [keys] using nodup
      rw [concat, induction parts.2, get_insert, get_cons]
      by_cases equal : key = other
      · subst key
        simp [get_eq_none_of_not_mem_keys parts.1]
      · simp [equal]

end Members

mutual
/-- The merge patch of RFC 7396: objects are patched member by member, a null
member of the patch deletes, and anything else replaces the target. -/
def Value.mergePatch (target : Value) : Value → Value
  | .object patch =>
      .object (Members.mergePatch (target.asObject.getD []) patch)
  | .null => .null
  | .bool value => .bool value
  | .number value => .number value
  | .string value => .string value
  | .array items => .array items

def Members.mergePatch (target : List (String × Value)) :
    List (String × Value) → List (String × Value)
  | [] => target
  | (key, .null) :: rest => Members.mergePatch (Members.remove target key) rest
  | (key, patch) :: rest =>
      Members.mergePatch
        (Members.insert target key
          (Value.mergePatch ((Members.get target key).getD .null) patch))
        rest
end

namespace Members

/-- What a merge patch leaves under a key whose patch member is `patch`. -/
def patched (old : Option Value) : Option Value → Option Value
  | none => old
  | some .null => none
  | some patch => some (Value.mergePatch (old.getD .null) patch)

theorem get_mergePatch {target patch : Members} (nodup : patch.keys.Nodup)
    (key : String) :
    Members.get (Members.mergePatch target patch) key =
      patched (target.get key) (patch.get key) := by
  induction patch generalizing target with
  | nil => simp [mergePatch, patched]
  | cons member rest induction =>
      rcases member with ⟨other, value⟩
      have parts : other ∉ Members.keys rest ∧ (Members.keys rest).Nodup := by
        simpa [keys] using nodup
      have absent := get_eq_none_of_not_mem_keys parts.1
      by_cases equal : key = other
      · subst key
        cases value <;>
          simp [mergePatch, induction parts.2, absent, get_remove, get_cons, patched]
      · cases value <;>
          simp [mergePatch, induction parts.2, get_remove, get_insert_other, get_cons,
            equal]

end Members

/-! ## Text

Rendering and parsing belong to the JSON library and are parameters of the
functions that use them. -/

structure SerdeJson where
  toString : Value → String
  fromStr : String → Option Value

end HarnessAgent
