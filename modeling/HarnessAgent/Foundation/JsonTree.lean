import HarnessAgent.Foundation.JsonMerge

/-! # Rules for JSON documents

A document is taken apart into its parts. What holds of a value because it holds of its
items or members holds of every document. In a document that a parser gives no object
has a key twice, at any depth.
-/

namespace HarnessAgent

namespace Value

def isPlain : Value → Bool
  | .array _ => false
  | .object _ => false
  | _ => true

section

variable {motive : Value → Prop}
  (plain : ∀ value : Value, value.isPlain = true → motive value)
  (array : ∀ items : List Value, (∀ item ∈ items, motive item) → motive (.array items))
  (object : ∀ members : Members, (∀ member ∈ members, motive member.2) → motive (.object members))

include plain array object

set_option linter.unusedSectionVars false

mutual
theorem tree_rule : ∀ value : Value, motive value
  | .null => plain _ rfl
  | .bool _ => plain _ rfl
  | .number _ => plain _ rfl
  | .string _ => plain _ rfl
  | .array items => array items (tree_rule_items items)
  | .object members => object members (tree_rule_members members)

theorem tree_rule_items : ∀ items : List Value, ∀ item ∈ items, motive item
  | [] => List.forall_mem_nil _
  | first :: rest => List.forall_mem_cons.mpr ⟨tree_rule first, tree_rule_items rest⟩

theorem tree_rule_members :
    ∀ members : List (String × Value), ∀ member ∈ members, motive member.2
  | [] => List.forall_mem_nil _
  | (_, first) :: rest => List.forall_mem_cons.mpr ⟨tree_rule first, tree_rule_members rest⟩
end

end

/-! ## Texts -/

mutual
def texts : Value → List String
  | .null | .bool _ | .number _ => []
  | .string text => [text]
  | .array items => textsOfItems items
  | .object members => textsOfMembers members

def textsOfItems : List Value → List String
  | [] => []
  | first :: rest => first.texts ++ textsOfItems rest

def textsOfMembers : List (String × Value) → List String
  | [] => []
  | (key, first) :: rest => key :: first.texts ++ textsOfMembers rest
end

/-! ## Parts -/

inductive Part (part : Value) : Value → Prop
  | self : Part part part
  | item {items : List Value} {item : Value} (listed : item ∈ items) (inside : Part part item) :
      Part part (.array items)
  | member {members : Members} {member : String × Value} (listed : member ∈ members)
      (inside : Part part member.2) : Part part (.object members)

variable {members : Members}

theorem part_array_iff {items : List Value} :
    Part (.object members) (.array items) ↔ ∃ item ∈ items, Part (.object members) item := by
  constructor
  · intro inside
    cases inside with
    | item listed inside => exact ⟨_, listed, inside⟩
  · intro found
    rcases found with ⟨item, listed, inside⟩
    exact .item listed inside

theorem part_object_iff {part : Members} :
    Part (.object part) (.object members) ↔
      part = members ∨ ∃ member ∈ members, Part (.object part) member.2 := by
  constructor
  · intro inside
    cases inside with
    | self => exact .inl rfl
    | member listed inside => exact .inr ⟨_, listed, inside⟩
  · intro found
    rcases found with rfl | ⟨member, listed, inside⟩
    · exact .self
    · exact .member listed inside

theorem not_part_of_isPlain (plain : value.isPlain = true) : ¬Part (.object members) value := by
  intro inside
  cases inside with
  | self => cases plain
  | item => cases plain
  | member => cases plain

/-! ## Keys -/

def Formed (value : Value) : Prop :=
  ∀ members, Part (.object members) value → (Members.keys members).Nodup

theorem formed_array_iff {items : List Value} :
    (Value.array items).Formed ↔ ∀ item ∈ items, item.Formed := by
  constructor
  · intro formed item listed members inside
    exact formed members (.item listed inside)
  · intro formed members inside
    rcases part_array_iff.mp inside with ⟨item, listed, inside⟩
    exact formed item listed members inside

theorem formed_object_iff :
    (Value.object members).Formed ↔
      members.keys.Nodup ∧ ∀ member ∈ members, member.2.Formed := by
  constructor
  · intro formed
    refine ⟨formed members .self, ?_⟩
    intro member listed inner inside
    exact formed inner (.member listed inside)
  · intro both inner inside
    rcases part_object_iff.mp inside with rfl | ⟨member, listed, inside⟩
    · exact both.1
    · exact both.2 member listed inner inside

theorem formed_of_isPlain {value : Value} (plain : value.isPlain = true) : value.Formed :=
  fun _ inside => absurd inside (not_part_of_isPlain plain)

mutual
def isFormed : Value → Bool
  | .array items => isFormedItems items
  | .object members => decide (Members.keys members).Nodup && isFormedMembers members
  | .null => true
  | .bool _ => true
  | .number _ => true
  | .string _ => true

def isFormedItems : List Value → Bool
  | [] => true
  | item :: rest => isFormed item && isFormedItems rest

def isFormedMembers : List (String × Value) → Bool
  | [] => true
  | (_, value) :: rest => isFormed value && isFormedMembers rest
end

theorem isFormedItems_eq_all (items : List Value) : isFormedItems items = items.all isFormed := by
  induction items with
  | nil => rfl
  | cons item rest induction => rw [isFormedItems, induction, List.all_cons]

theorem isFormedMembers_eq_all (members : Members) :
    isFormedMembers members = members.all fun member => isFormed member.2 := by
  induction members with
  | nil => rfl
  | cons member rest induction => rw [isFormedMembers, induction, List.all_cons]

theorem isFormed_iff (value : Value) : value.isFormed = true ↔ value.Formed := by
  induction value using tree_rule with
  | plain value plain =>
      refine iff_of_true ?_ (formed_of_isPlain plain)
      cases value with
      | array items => cases plain
      | object members => cases plain
      | null => rfl
      | bool value => rfl
      | number value => rfl
      | string value => rfl
  | array items induction =>
      rw [isFormed, isFormedItems_eq_all, List.all_eq_true, formed_array_iff]
      exact forall₂_congr induction
  | object members induction =>
      rw [isFormed, isFormedMembers_eq_all, Bool.and_eq_true, decide_eq_true_eq,
        List.all_eq_true, formed_object_iff]
      exact and_congr_right fun _ => forall₂_congr induction

instance (value : Value) : Decidable value.Formed :=
  decidable_of_iff _ value.isFormed_iff

end Value

namespace Members

variable {key : String}

theorem insert_append (new : key ∉ base.keys) (rest : Members) (value : Value) :
    Members.insert (base ++ rest) key value = base ++ rest.insert key value := by
  induction base with
  | nil => rfl
  | cons member others induction =>
      rcases member with ⟨other, old⟩
      rw [keys, List.map_cons, List.mem_cons, not_or] at new
      rw [List.cons_append, insert, if_neg fun same => new.1 same.symm, induction new.2,
        List.cons_append]

variable {members : Members}

theorem insert_of_not_mem (new : key ∉ members.keys) (value : Value) :
    members.insert key value = members ++ [(key, value)] := by
  have behind := insert_append new [] value
  rw [List.append_nil] at behind
  exact behind

theorem concat_eq_append (nodup : (members ++ update).keys.Nodup) :
    members.concat update = members ++ update := by
  induction update generalizing members with
  | nil => rw [concat, List.append_nil]
  | cons member rest induction =>
      rcases member with ⟨key, value⟩
      have new : key ∉ members.keys := by
        rw [keys, List.map_append, List.map_cons, List.nodup_append] at nodup
        intro known
        exact nodup.2.2 key known key List.mem_cons_self rfl
      have split : members ++ (key, value) :: rest = members ++ [(key, value)] ++ rest := by simp
      rw [concat, insert_of_not_mem new]
      rw [split] at nodup ⊢
      exact induction nodup

theorem concat_nil (nodup : members.keys.Nodup) : Members.concat [] members = members :=
  concat_eq_append nodup

variable (change : Value → Value)

theorem get_map (members : Members) (key : String) :
    Members.get (members.map fun member => (member.1, change member.2)) key =
      (members.get key).map change := by
  induction members with
  | nil => rfl
  | cons member rest induction =>
      rcases member with ⟨other, value⟩
      rw [List.map_cons, get_cons, get_cons, induction]
      split
      · rfl
      · rfl

theorem keys_map (members : Members) :
    Members.keys (members.map fun member => (member.1, change member.2)) = members.keys := by
  rw [keys, keys, List.map_map]
  rfl

/-- What is put in the place of an equal member changes nothing. -/
theorem insert_eq_self (found : members.get key = some value) :
    members.insert key value = members := by
  induction members with
  | nil => cases found
  | cons member rest induction =>
      rcases member with ⟨other, old⟩
      rw [get_cons] at found
      rw [insert]
      by_cases same : other = key
      · subst same
        rw [if_pos rfl] at found
        rw [if_pos rfl, Option.some.inj found]
      · rw [if_neg fun again => same again.symm] at found
        rw [if_neg same, induction found]

theorem keys_cons (key : String) (value : Value) (rest : Members) :
    Members.keys ((key, value) :: rest) = key :: Members.keys rest := rfl

theorem keys_insert (members : Members) (key : String) (value : Value) :
    (members.insert key value).keys =
      if key ∈ members.keys then members.keys else members.keys ++ [key] := by
  induction members with
  | nil => rfl
  | cons member rest induction =>
      rcases member with ⟨other, old⟩
      rw [insert, keys_cons]
      by_cases same : other = key
      · rw [if_pos same, keys_cons, same, if_pos List.mem_cons_self]
      · have apart : key ≠ other := fun again => same again.symm
        rw [if_neg same, keys_cons, induction]
        by_cases known : key ∈ Members.keys rest
        · rw [if_pos known, if_pos (List.mem_cons_of_mem other known)]
        · rw [if_neg known, if_neg (List.not_mem_cons_of_ne_of_not_mem apart known)]
          rfl

theorem nodup_keys_insert (nodup : members.keys.Nodup) (key : String) (value : Value) :
    (members.insert key value).keys.Nodup := by
  rw [keys_insert]
  split
  · exact nodup
  · next new =>
      rw [List.nodup_append]
      refine ⟨nodup, List.pairwise_singleton _ key, ?_⟩
      intro old known own only
      rw [List.mem_singleton.mp only]
      intro same
      exact new (same ▸ known)

theorem mem_keys_iff : key ∈ members.keys ↔ (members.get key).isSome = true := by
  induction members with
  | nil => exact iff_of_false List.not_mem_nil Bool.false_ne_true
  | cons member rest induction =>
      rcases member with ⟨other, old⟩
      rw [keys_cons, List.mem_cons, get_cons, induction]
      by_cases same : key = other
      · rw [if_pos same]
        exact iff_of_true (.inl same) rfl
      · rw [if_neg same]
        exact or_iff_right same

def changed (change : Value → Value) (key : String) (members : Members) : Members :=
  members.map fun member => (member.1, if member.1 = key then change member.2 else member.2)

theorem changed_of_not_mem (absent : key ∉ members.keys) :
    members.changed change key = members := by
  rw [changed]
  conv_rhs => rw [← List.map_id members]
  apply List.map_congr_left
  intro member known
  have other : member.1 ≠ key := by
    intro same
    exact absent (same ▸ List.mem_map.mpr ⟨member, known, rfl⟩)
  rw [if_neg other]
  rfl

theorem insert_eq_changed (nodup : members.keys.Nodup) (found : members.get key = some old) :
    members.insert key (change old) = members.changed change key := by
  induction members with
  | nil => cases found
  | cons member rest induction =>
      rcases member with ⟨other, value⟩
      rw [keys_cons, List.nodup_cons] at nodup
      rw [get_cons] at found
      rw [insert, changed, List.map_cons]
      by_cases same : other = key
      · subst same
        rw [if_pos rfl] at found
        cases found
        have others := changed_of_not_mem change nodup.1
        rw [changed] at others
        rw [if_pos rfl, if_pos rfl, others]
      · rw [if_neg fun again => same again.symm] at found
        rw [if_neg same, if_neg same, induction nodup.2 found]
        rfl

theorem get_changed_other (members : Members) (different : other ≠ key) :
    (members.changed change key).get other = members.get other := by
  induction members with
  | nil => rfl
  | cons member rest induction =>
      rcases member with ⟨name, value⟩
      rw [changed] at induction
      rw [changed, List.map_cons, get_cons, get_cons, induction]
      by_cases same : other = name
      · rw [if_pos same, if_pos same, if_neg (same ▸ different)]
      · rw [if_neg same, if_neg same]

theorem keys_changed (key : String) (members : Members) :
    (members.changed change key).keys = members.keys := by
  rw [changed, keys, keys, List.map_map]
  rfl

end Members

end HarnessAgent
