import HarnessAgent.Foundation.JsonTree

/-! # Tables of dotted keys

A table can be given by definitions, each with a path of keys and a value. No definition may
lead into the value of another one.
-/

namespace HarnessAgent

namespace DottedKeys

abbrev Definition := List String × Value

def Apart (left right : List String) : Prop :=
  ¬ left <+: right ∧ ¬ right <+: left

instance (left right : List String) : Decidable (Apart left right) :=
  inferInstanceAs (Decidable (_ ∧ _))

/-- A value put under a path, whose tables are made where they are missing. -/
def insertAt : List String → Value → Members → Members
  | [], _, table => table
  | [key], value, table => table.insert key value
  | key :: next :: path, value, table =>
      table.insert key (.object (insertAt (next :: path) value ((table.getObject key).getD [])))

def insertAll (definitions : List Definition) (table : Members) : Members :=
  definitions.foldl (fun table definition => insertAt definition.1 definition.2 table) table

def tableOf (definitions : List Definition) : Option Members :=
  if (definitions.map Prod.fst).Pairwise Apart then some (insertAll definitions []) else none

def below (key : String) (definition : Definition) : Definition :=
  (key :: definition.1, definition.2)

mutual
def leaves : List (String × Value) → List Definition
  | [] => []
  | (key, value) :: rest => (leavesOf value).map (below key) ++ leaves rest

def leavesOf : Value → List Definition
  | .object members => if members.isEmpty then [([], .object [])] else leaves members
  | value => [([], value)]
end

/-! ## Merging -/

variable {base : Members} {key : String}

theorem insertAt_new (new : key ∉ base.keys) (longer : path ≠ []) (value : Value) :
    insertAt (key :: path) value base = base ++ [(key, .object (insertAt path value []))] := by
  cases path with
  | nil => exact absurd rfl longer
  | cons next rest =>
      rw [insertAt, Members.getObject, Members.get_eq_none_of_not_mem_keys new,
        Members.insert_of_not_mem new]
      rfl

theorem insertAt_last (new : key ∉ base.keys) (longer : path ≠ []) (value : Value) (inner : Members) :
    insertAt (key :: path) value (base ++ [(key, .object inner)]) =
      base ++ [(key, .object (insertAt path value inner))] := by
  cases path with
  | nil => exact absurd rfl longer
  | cons next rest =>
      have found : Members.getObject (base ++ [(key, .object inner)]) key = some inner := by
        rw [Members.getObject, Members.get_append, Members.get_eq_none_of_not_mem_keys new,
          Members.get_cons, if_pos rfl]
        rfl
      rw [insertAt, found, Members.insert_append new, Members.insert, if_pos rfl]
      rfl

theorem insertAll_append (first second : List Definition) (table : Members) :
    insertAll (first ++ second) table = insertAll second (insertAll first table) :=
  List.foldl_append

theorem insertAll_cons (first : Definition) (rest : List Definition) (table : Members) :
    insertAll (first :: rest) table = insertAll rest (insertAt first.1 first.2 table) := rfl

variable {definitions : List Definition}

theorem insertAll_last (new : key ∉ base.keys)
    (longer : ∀ definition ∈ definitions, definition.1 ≠ []) (inner : Members) :
    insertAll (definitions.map (below key)) (base ++ [(key, .object inner)]) =
      base ++ [(key, .object (insertAll definitions inner))] := by
  induction definitions generalizing inner with
  | nil => rfl
  | cons first rest induction =>
      rw [List.forall_mem_cons] at longer
      rw [List.map_cons, insertAll_cons, below, insertAt_last new longer.1, induction longer.2,
        insertAll_cons]

theorem insertAll_new (new : key ∉ base.keys) (some : definitions ≠ [])
    (longer : ∀ definition ∈ definitions, definition.1 ≠ []) :
    insertAll (definitions.map (below key)) base =
      base ++ [(key, .object (insertAll definitions []))] := by
  cases definitions with
  | nil => exact absurd rfl some
  | cons first rest =>
      rw [List.forall_mem_cons] at longer
      rw [List.map_cons, insertAll_cons, below, insertAt_new new longer.1,
        insertAll_last new longer.2, insertAll_cons]

/-! ## Leaves -/

theorem leaves_eq_flatMap (members : Members) :
    leaves members = members.flatMap fun member => (leavesOf member.2).map (below member.1) := by
  induction members with
  | nil => rfl
  | cons member rest induction => rw [leaves, induction, List.flatMap_cons]

variable {members : Members}

theorem mem_leaves_iff {definition : Definition} :
    definition ∈ leaves members ↔
      ∃ member ∈ members, ∃ inner ∈ leavesOf member.2, below member.1 inner = definition := by
  rw [leaves_eq_flatMap]
  simp only [List.mem_flatMap, List.mem_map]

theorem leavesOf_object (some : members ≠ []) : leavesOf (.object members) = leaves members := by
  rw [leavesOf, if_neg]
  rwa [List.isEmpty_iff]

theorem leavesOf_of_isPlain (plain : value.isPlain = true) : leavesOf value = [([], value)] := by
  cases value with
  | array items => cases plain
  | object members => cases plain
  | _ => rfl

theorem longer_of_mem_leaves : ∀ definition ∈ leaves members, definition.1 ≠ [] := by
  intro definition listed
  rcases mem_leaves_iff.mp listed with ⟨member, -, inner, -, rfl⟩
  exact List.cons_ne_nil _ _

theorem leavesOf_ne_nil (value : Value) : leavesOf value ≠ [] := by
  induction value using Value.tree_rule with
  | plain value plain =>
      rw [leavesOf_of_isPlain plain]
      exact List.cons_ne_nil _ _
  | array items induction => exact List.cons_ne_nil _ _
  | object members induction =>
      cases members with
      | nil => exact List.cons_ne_nil _ _
      | cons member rest =>
          rw [leavesOf_object (List.cons_ne_nil _ _), leaves]
          intro none
          exact induction member List.mem_cons_self
            (List.map_eq_nil_iff.mp (List.append_eq_nil_iff.mp none).1)

theorem leaves_ne_nil (some : members ≠ []) : leaves members ≠ [] := by
  rw [← leavesOf_object some]
  exact leavesOf_ne_nil _

theorem insertAll_leaves
    (values : ∀ member ∈ members, ∀ (base : Members) (key : String), key ∉ base.keys →
      insertAll ((leavesOf member.2).map (below key)) base = base ++ [(key, member.2)])
    (base : Members) (nodup : (base ++ members).keys.Nodup) :
    insertAll (leaves members) base = base ++ members := by
  induction members generalizing base with
  | nil => rw [leaves, List.append_nil]; rfl
  | cons member rest induction =>
      rcases member with ⟨key, value⟩
      rw [List.forall_mem_cons] at values
      have new : key ∉ base.keys := by
        rw [Members.keys, List.map_append, List.map_cons, List.nodup_append] at nodup
        intro known
        exact nodup.2.2 key known key List.mem_cons_self rfl
      have split : base ++ (key, value) :: rest = base ++ [(key, value)] ++ rest := by simp
      rw [leaves, insertAll_append, values.1 base key new]
      rw [split] at nodup ⊢
      exact induction values.2 _ nodup

theorem insertAll_leavesOf (value : Value) (formed : value.Formed) (base : Members) (key : String)
    (new : key ∉ base.keys) :
    insertAll ((leavesOf value).map (below key)) base = base ++ [(key, value)] := by
  induction value using Value.tree_rule generalizing base key with
  | plain value plain =>
      rw [leavesOf_of_isPlain plain]
      exact Members.insert_of_not_mem new value
  | array items induction => exact Members.insert_of_not_mem new _
  | object members induction =>
      rcases Value.formed_object_iff.mp formed with ⟨nodup, inner⟩
      by_cases none : members = []
      · rw [none]
        exact Members.insert_of_not_mem new _
      · have values : ∀ member ∈ members, ∀ (base : Members) (key : String), key ∉ base.keys →
            insertAll ((leavesOf member.2).map (below key)) base = base ++ [(key, member.2)] :=
          fun member listed => induction member listed (inner member listed)
        rw [leavesOf_object none, insertAll_new new (leaves_ne_nil none) longer_of_mem_leaves,
          insertAll_leaves values [] nodup, List.nil_append]

/-! ## Collisions -/

theorem apart_cons_iff {left right : List String} :
    Apart (key :: left) (key :: right) ↔ Apart left right := by
  simp [Apart, List.cons_prefix_cons]

theorem apart_of_ne (different : key ≠ other) (left right : List String) :
    Apart (key :: left) (other :: right) := by
  simp [Apart, List.cons_prefix_cons, different, different.symm]

theorem pairwise_below (key : String) (apart : (definitions.map Prod.fst).Pairwise Apart) :
    ((definitions.map (below key)).map Prod.fst).Pairwise Apart := by
  rw [List.pairwise_map] at apart
  rw [List.map_map, List.pairwise_map]
  exact apart.imp fun apart => apart_cons_iff.mpr apart

theorem pairwise_leaves (nodup : members.keys.Nodup)
    (values : ∀ member ∈ members, ((leavesOf member.2).map Prod.fst).Pairwise Apart) :
    ((leaves members).map Prod.fst).Pairwise Apart := by
  induction members with
  | nil => exact List.Pairwise.nil
  | cons member rest induction =>
      rcases member with ⟨key, value⟩
      rw [List.forall_mem_cons] at values
      rw [Members.keys_cons, List.nodup_cons] at nodup
      rw [leaves, List.map_append, List.pairwise_append]
      refine ⟨pairwise_below key values.1, induction nodup.2 values.2, ?_⟩
      intro left first right second
      rcases List.mem_map.mp first with ⟨own, listed, rfl⟩
      rcases List.mem_map.mp listed with ⟨inner, -, rfl⟩
      rcases List.mem_map.mp second with ⟨other, listed, rfl⟩
      rcases mem_leaves_iff.mp listed with ⟨member, known, deeper, -, rfl⟩
      apply apart_of_ne
      intro same
      exact nodup.1 (same ▸ List.mem_map.mpr ⟨member, known, rfl⟩)

theorem pairwise_leavesOf (value : Value) (formed : value.Formed) :
    ((leavesOf value).map Prod.fst).Pairwise Apart := by
  induction value using Value.tree_rule with
  | plain value plain =>
      rw [leavesOf_of_isPlain plain]
      exact List.pairwise_singleton ..
  | array items induction => exact List.pairwise_singleton ..
  | object members induction =>
      rcases Value.formed_object_iff.mp formed with ⟨nodup, inner⟩
      by_cases none : members = []
      · rw [none]
        exact List.pairwise_singleton ..
      · rw [leavesOf_object none]
        exact pairwise_leaves nodup fun member listed =>
          induction member listed (inner member listed)

theorem tableOf_leaves (formed : (Value.object members).Formed) :
    tableOf (leaves members) = some members := by
  rcases Value.formed_object_iff.mp formed with ⟨nodup, inner⟩
  have apart := pairwise_leaves nodup fun member listed =>
    pairwise_leavesOf member.2 (inner member listed)
  have values : ∀ member ∈ members, ∀ (base : Members) (key : String), key ∉ base.keys →
      insertAll ((leavesOf member.2).map (below key)) base = base ++ [(key, member.2)] :=
    fun member listed => insertAll_leavesOf member.2 (inner member listed)
  rw [tableOf, if_pos apart, insertAll_leaves values [] nodup, List.nil_append]

theorem tableOf_members (nodup : members.keys.Nodup) :
    tableOf (members.map fun member => ([member.1], member.2)) = some members := by
  have concats (base : Members) :
      insertAll (members.map fun member => ([member.1], member.2)) base = base.concat members := by
    clear nodup
    induction members generalizing base with
    | nil => rfl
    | cons member rest induction => exact induction (base.insert member.1 member.2)
  have apart :
      ((members.map fun member => ([member.1], member.2)).map Prod.fst).Pairwise Apart := by
    rw [List.map_map, List.pairwise_map]
    rw [Members.keys, List.nodup_iff_pairwise_ne, List.pairwise_map] at nodup
    exact nodup.imp fun different => apart_of_ne different [] []
  rw [tableOf, if_pos apart, concats, Members.concat_nil nodup]

end DottedKeys

end HarnessAgent
