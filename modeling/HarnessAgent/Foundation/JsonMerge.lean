import HarnessAgent.Foundation.Json

/-! # Comparing merges of JSON objects

Two values are the same if they differ in the order of members only. A merge patch of
an object replaces its members one by one where concatenation replaces them whole; here
it is said when that makes no difference.
-/

namespace HarnessAgent

namespace Value

inductive Same : Value → Value → Prop
  | refl (value : Value) : Same value value
  | array {left right : List Value} (length : left.length = right.length)
      (items : ∀ (index : Nat) first second, left[index]? = some first →
        right[index]? = some second → Same first second) : Same (.array left) (.array right)
  | object {left right : Members} (keys : ∀ key, left.get key = none ↔ right.get key = none)
      (values : ∀ key first second, left.get key = some first → right.get key = some second →
        Same first second) : Same (.object left) (.object right)

theorem same_object_iff {left right : Members} :
    Same (.object left) (.object right) ↔
      (∀ key, left.get key = none ↔ right.get key = none) ∧
        ∀ key first second, left.get key = some first → right.get key = some second →
          Same first second := by
  constructor
  · intro same
    cases same with
    | refl =>
        refine ⟨fun key => Iff.rfl, ?_⟩
        intro key first second found again
        rw [found] at again
        cases again
        exact .refl first
    | object keys values => exact ⟨keys, values⟩
  · rintro ⟨keys, values⟩
    exact .object keys values

end Value

mutual
/-- No object that a merge takes apart has a key twice. -/
def Value.Distinct : Value → Prop
  | .object members => (Members.keys members).Nodup ∧ Members.Distinct members
  | _ => True

def Members.Distinct : List (String × Value) → Prop
  | [] => True
  | (_, value) :: rest => value.Distinct ∧ Members.Distinct rest
end

structure Document where
  members : Members
  distinct : (Value.object members).Distinct

namespace Members

variable {key : String} {members : Members} {value : Value}

theorem mem_of_get (found : members.get key = some value) : (key, value) ∈ members := by
  induction members with
  | nil => cases found
  | cons member rest induction =>
      rcases member with ⟨other, old⟩
      rw [get_cons] at found
      split at found
      · next same =>
          cases found
          exact same ▸ List.mem_cons_self
      · exact List.mem_cons_of_mem _ (induction found)

theorem get_of_mem (nodup : members.keys.Nodup) (member : (key, value) ∈ members) :
    members.get key = some value := by
  induction members with
  | nil => cases member
  | cons first rest induction =>
      rcases first with ⟨other, old⟩
      have parts := List.nodup_cons.mp nodup
      rw [get_cons]
      rcases List.mem_cons.mp member with same | later
      · cases same
        exact if_pos rfl
      · have different : key ≠ other := by
          intro same
          have known : key ∈ rest.map Prod.fst := List.mem_map.mpr ⟨_, later, rfl⟩
          exact parts.1 (same ▸ known)
        rw [if_neg different]
        exact induction parts.2 later

theorem mem_insert (nodup : members.keys.Nodup) {entry : String × Value} :
    entry ∈ members.insert key value ↔ entry = (key, value) ∨ (entry ∈ members ∧ entry.1 ≠ key) := by
  induction members with
  | nil => simp [insert]
  | cons first rest induction =>
      rcases first with ⟨other, old⟩
      have parts := List.nodup_cons.mp nodup
      rw [insert]
      by_cases same : other = key
      · rw [if_pos same, List.mem_cons, List.mem_cons]
        have later (member : entry ∈ rest) : entry.1 ≠ key := by
          intro again
          have known : entry.1 ∈ rest.map Prod.fst := List.mem_map.mpr ⟨_, member, rfl⟩
          rw [again, ← same] at known
          exact parts.1 known
        grind
      · rw [if_neg same, List.mem_cons, induction parts.2, List.mem_cons]
        grind

theorem Distinct.of_get (distinct : Members.Distinct members)
    (found : members.get key = some value) : value.Distinct := by
  induction members with
  | nil => cases found
  | cons member rest induction =>
      rcases member with ⟨other, old⟩
      rw [Members.Distinct] at distinct
      rw [get_cons] at found
      split at found
      · cases found
        exact distinct.1
      · exact induction distinct.2 found

end Members

mutual
/-- Patching the old value leaves nothing of it and loses nothing of the patch: an object
has no null member, mentions every member of an object it meets, and replaces each. -/
def Value.Replaces (old : Value) : Value → Prop
  | .object members =>
      (∀ key, Members.get members key = none → old.get key = none) ∧
        Members.Replace (old.asObject.getD []) members
  | _ => True

def Members.Replace (old : List (String × Value)) : List (String × Value) → Prop
  | [] => True
  | (key, value) :: rest =>
      (value ≠ .null ∧ Value.Replaces ((Members.get old key).getD .null) value) ∧
        Members.Replace old rest
end

theorem Members.replace_iff {old members : Members} (nodup : members.keys.Nodup) :
    Members.Replace old members ↔ ∀ key value, members.get key = some value →
      value ≠ .null ∧ Value.Replaces ((old.get key).getD .null) value := by
  induction members with
  | nil =>
      rw [Members.Replace]
      exact iff_of_true trivial nofun
  | cons member rest induction =>
      rcases member with ⟨key, value⟩
      have parts : key ∉ Members.keys rest ∧ (Members.keys rest).Nodup := by
        simpa [Members.keys] using nodup
      rw [Members.Replace, induction parts.2]
      constructor
      · rintro ⟨first, others⟩ wanted found listed
        rw [Members.get_cons] at listed
        split at listed
        · next same =>
            cases listed
            exact same ▸ first
        · exact others wanted found listed
      · intro each
        refine ⟨each key value (by rw [Members.get_cons, if_pos rfl]), ?_⟩
        intro wanted found listed
        refine each wanted found ?_
        have different : wanted ≠ key := by
          intro same
          subst same
          rw [Members.get_eq_none_of_not_mem_keys parts.1] at listed
          cases listed
        rw [Members.get_cons, if_neg different]
        exact listed

theorem Value.get_eq_get_asObject (value : Value) (key : String) :
    value.get key = Members.get (value.asObject.getD []) key := by
  cases value <;> rfl

theorem Members.patched_of_ne_null {old : Option Value} (kept : value ≠ .null) :
    Members.patched old (some value) = some (Value.mergePatch (old.getD .null) value) := by
  cases value with
  | null => exact absurd rfl kept
  | _ => rfl

/-- Patching under one key: nothing else is left there, and the patch is not lost. -/
theorem Members.patched_same_iff {old patch : Option Value}
    (induction : ∀ value, patch = some value → ∀ other : Value,
      (other.mergePatch value).Same value ↔ other.Replaces value) :
    ((Members.patched old patch = none ↔ patch = none) ∧
      ∀ first second, Members.patched old patch = some first → patch = some second →
        first.Same second) ↔
      (patch = none → old = none) ∧
        ∀ value, patch = some value → value ≠ .null ∧ Value.Replaces (old.getD .null) value := by
  cases patch with
  | none => simp [Members.patched]
  | some value =>
      by_cases null : value = .null
      · subst null
        simp [Members.patched]
      · have one := induction value rfl (old.getD .null)
        simp [Members.patched_of_ne_null null, null, one]

theorem Value.same_mergePatch_iff (patch : Value) (distinct : patch.Distinct) (old : Value) :
    (old.mergePatch patch).Same patch ↔ old.Replaces patch := by
  match patch with
  | .object members =>
      rw [Value.Distinct] at distinct
      rw [Value.mergePatch, Value.same_object_iff, Value.Replaces,
        Members.replace_iff distinct.1]
      simp only [Members.get_mergePatch distinct.1, Value.get_eq_get_asObject old]
      have each := fun key => @Members.patched_same_iff
        (Members.get (old.asObject.getD []) key) (Members.get members key)
        (fun value found => Value.same_mergePatch_iff value (distinct.2.of_get found))
      constructor
      · rintro ⟨keys, values⟩
        have both := fun key => (each key).mp ⟨keys key, values key⟩
        exact ⟨fun key => (both key).1, fun key => (both key).2⟩
      · rintro ⟨keys, values⟩
        have both := fun key => (each key).mpr ⟨keys key, values key⟩
        exact ⟨fun key => (both key).1, fun key => (both key).2⟩
  | .null => exact iff_of_true (.refl _) trivial
  | .bool value => exact iff_of_true (.refl _) trivial
  | .number value => exact iff_of_true (.refl _) trivial
  | .string value => exact iff_of_true (.refl _) trivial
  | .array items => exact iff_of_true (.refl _) trivial
termination_by sizeOf patch
decreasing_by
  have smaller := List.sizeOf_lt_of_mem (Members.mem_of_get found)
  simp only [Prod.mk.sizeOf_spec, Value.object.sizeOf_spec] at *
  omega

theorem Members.patched_same_or_iff {old patch : Option Value}
    (distinct : ∀ value, patch = some value → value.Distinct) :
    ((Members.patched old patch = none ↔ patch.or old = none) ∧
      ∀ first second, Members.patched old patch = some first → patch.or old = some second →
        first.Same second) ↔
      ∀ value, patch = some value → value ≠ .null ∧ Value.Replaces (old.getD .null) value := by
  cases patch with
  | none =>
      refine iff_of_true ⟨Iff.rfl, ?_⟩ nofun
      intro first second found again
      rw [Members.patched] at found
      rw [Option.none_or, found] at again
      cases again
      exact .refl first
  | some value =>
      by_cases null : value = .null
      · subst null
        simp [Members.patched]
      · have one := Value.same_mergePatch_iff value (distinct value rfl) (old.getD .null)
        simp [Members.patched_of_ne_null null, null, one]

theorem Members.same_mergePatch_concat_iff {stored update : Members}
    (distinct : (Value.object update).Distinct) :
    (Value.object (Members.mergePatch stored update)).Same (.object (stored.concat update)) ↔
      Members.Replace stored update := by
  rw [Value.Distinct] at distinct
  rw [Value.same_object_iff, Members.replace_iff distinct.1]
  simp only [Members.get_mergePatch distinct.1, Members.get_concat distinct.1]
  have each := fun key => @Members.patched_same_or_iff (stored.get key) (update.get key)
    (fun value found => distinct.2.of_get found)
  constructor
  · rintro ⟨keys, values⟩ key
    exact (each key).mp ⟨keys key, values key⟩
  · intro replaced
    have both := fun key => (each key).mpr (replaced key)
    exact ⟨fun key => (both key).1, fun key => (both key).2⟩

end HarnessAgent
