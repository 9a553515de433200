import Mathlib.Data.List.Induction
import Mathlib.Data.List.Perm.Basic
import Mathlib.Order.Lattice

/-! # Ordered and limited selections

The answers to a query that orders its rows by a key and may take only a number of them
from the front. Rows with the same key come in any order.
-/

namespace OrderedSelection

variable {α κ : Type*} [LinearOrder κ] (key : α → κ)

def Ascending (rows : List α) : Prop :=
  rows.Pairwise fun earlier later => key earlier ≤ key later

def Selects (limit : Option Nat) (matching answer : List α) : Prop :=
  ∃ ordered : List α, ordered.Perm matching ∧ Ascending key ordered ∧
    answer = (limit.elim ordered fun count => ordered.take count)

/-- The rows with the largest keys, as many as are counted if there are so many, in
ascending order. -/
structure Latest (count : Nat) (matching answer : List α) : Prop where
  ascending : Ascending key answer
  length_eq : answer.length = min count matching.length
  others : ∃ older : List α, (older ++ answer).Perm matching ∧
    ∀ earlier ∈ older, ∀ later ∈ answer, key earlier ≤ key later

def OneKey (rows : List α) : Prop :=
  ∀ left ∈ rows, ∀ right ∈ rows, key left = key right

variable {key}

theorem exists_ascending (key : α → κ) (matching : List α) :
    ∃ ordered : List α, ordered.Perm matching ∧ Ascending key ordered := by
  let below (left right : α) : Bool := decide (key left ≤ key right)
  have transitive : ∀ left middle right, below left middle = true → below middle right = true →
      below left right = true := by
    intro left middle right first second
    exact decide_eq_true (le_trans (of_decide_eq_true first) (of_decide_eq_true second))
  have total : ∀ left right, (below left right || below right left) = true := by
    intro left right
    rw [Bool.or_eq_true, decide_eq_true_eq, decide_eq_true_eq]
    exact le_total _ _
  have sorted := List.pairwise_mergeSort transitive total matching
  exact ⟨matching.mergeSort below, List.mergeSort_perm _ _, sorted.imp of_decide_eq_true⟩

theorem exists_selects (key : α → κ) (limit : Option Nat) (matching : List α) :
    ∃ answer, Selects key limit matching answer := by
  rcases exists_ascending key matching with ⟨ordered, same, ascending⟩
  exact ⟨_, ordered, same, ascending, rfl⟩

variable {answer matching : List α}

theorem Selects.perm (selects : Selects key none matching answer) : answer.Perm matching := by
  rcases selects with ⟨ordered, same, -, rfl⟩
  exact same

theorem Selects.ascending (selects : Selects key limit matching answer) : Ascending key answer := by
  rcases selects with ⟨ordered, -, ascending, rfl⟩
  cases limit with
  | none => exact ascending
  | some count => exact ascending.sublist (List.take_sublist count ordered)

theorem latest_iff_of_unlimited {count : Nat} (selects : Selects key none matching answer) :
    Latest key count matching answer ↔ matching.length ≤ count := by
  have same := selects.perm
  constructor
  · intro latest
    have length := latest.length_eq
    rw [same.length_eq] at length
    omega
  · intro few
    refine ⟨selects.ascending, ?_, [], same, List.forall_mem_nil _⟩
    rw [same.length_eq, Nat.min_eq_right few]

/-- The front of the ascending rows holds the latest ones exactly if all rows fit into the
limit, none does, or the order does not tell them apart. -/
theorem latest_iff_of_limited (selects : Selects key (some count) matching answer) :
    Latest key count matching answer ↔
      matching.length ≤ count ∨ count = 0 ∨ OneKey key matching := by
  rcases selects with ⟨ordered, same, ascending, rfl⟩
  change Latest key count matching (ordered.take count) ↔ _
  have split : ordered.take count ++ ordered.drop count = ordered := List.take_append_drop _ _
  have length : (ordered.take count).length = min count matching.length := by
    rw [List.length_take, same.length_eq]
  have sides := List.pairwise_append.mp (split.symm ▸ ascending : Ascending key (_ ++ _))
  constructor
  · intro latest
    by_contra others
    rcases not_or.mp others with ⟨many, others⟩
    rcases not_or.mp others with ⟨counts, apart⟩
    apply apart
    rcases latest.others with ⟨older, whole, below⟩
    have left : older.Perm (ordered.drop count) := by
      apply (List.perm_append_right_iff (ordered.take count)).mp
      apply (whole.trans same.symm).trans
      conv_lhs => rw [← split]
      exact List.perm_append_comm
    have equal : ∀ early ∈ ordered.take count, ∀ late ∈ ordered.drop count,
        key early = key late := by
      intro early inFront late inBack
      exact le_antisymm (sides.2.2 early inFront late inBack)
        (below late (left.mem_iff.mpr inBack) early inFront)
    have front : ∃ early, early ∈ ordered.take count := by
      apply List.exists_mem_of_length_pos
      rw [length]
      omega
    have back : ∃ late, late ∈ ordered.drop count := by
      apply List.exists_mem_of_length_pos
      rw [List.length_drop, same.length_eq]
      omega
    rcases front with ⟨early, inFront⟩
    rcases back with ⟨late, inBack⟩
    have toLate : ∀ row ∈ matching, key row = key late := by
      intro row member
      have inOrdered := same.mem_iff.mpr member
      rw [← split] at inOrdered
      rcases List.mem_append.mp inOrdered with rowFront | rowBack
      · exact equal row rowFront late inBack
      · exact (equal early inFront row rowBack).symm.trans (equal early inFront late inBack)
    intro first firstMember second secondMember
    exact (toLate first firstMember).trans (toLate second secondMember).symm
  · intro cases
    refine ⟨sides.1, length, ordered.drop count, ?_, ?_⟩
    · exact (List.perm_append_comm.trans (List.Perm.of_eq split)).trans same
    · intro late inBack early inFront
      rcases cases with few | none | oneKey
      · rw [List.drop_eq_nil_of_le (le_of_eq_of_le same.length_eq few)] at inBack
        cases inBack
      · rw [none, List.take_zero] at inFront
        cases inFront
      · exact le_of_eq (oneKey _ (same.mem_iff.mp (List.mem_of_mem_drop inBack)) _
          (same.mem_iff.mp (List.mem_of_mem_take inFront)))

theorem Ascending.getLast?_filterMap {β : Type*} {rows : List α} (ascending : Ascending key rows)
    {given : α → Option β} {last : β} (found : (rows.filterMap given).getLast? = some last) :
    ∃ row ∈ rows, given row = some last ∧
      ∀ other ∈ rows, (given other).isSome = true → key other ≤ key row := by
  induction rows using List.reverseRecOn with
  | nil => cases found
  | append_singleton front row induction =>
      rcases List.pairwise_append.mp ascending with ⟨frontAscending, -, below⟩
      rw [List.filterMap_append, List.filterMap_cons, List.filterMap_nil] at found
      cases own : given row with
      | none =>
          rw [own, List.append_nil] at found
          rcases induction frontAscending found with ⟨earlier, member, gives, largest⟩
          refine ⟨earlier, List.mem_append_left _ member, gives, ?_⟩
          intro other otherMember someGiven
          rcases List.mem_append.mp otherMember with inFront | same
          · exact largest other inFront someGiven
          · rw [List.mem_singleton.mp same, own] at someGiven
            cases someGiven
      | some value =>
          rw [own, List.getLast?_append, List.getLast?_singleton, Option.some_or] at found
          cases found
          refine ⟨row, List.mem_append_right _ (List.mem_singleton_self row), own, ?_⟩
          intro other otherMember _
          rcases List.mem_append.mp otherMember with inFront | same
          · exact below other inFront row (List.mem_singleton_self row)
          · rw [List.mem_singleton.mp same]

theorem Selects.head_least (selects : Selects key (some 1) matching answer)
    (first : answer.head? = some row) :
    row ∈ matching ∧ ∀ other ∈ matching, key row ≤ key other := by
  rcases selects with ⟨ordered, same, ascending, rfl⟩
  cases ordered with
  | nil => cases first
  | cons least rest =>
      cases first
      refine ⟨same.mem_iff.mp List.mem_cons_self, ?_⟩
      intro other member
      rcases List.mem_cons.mp (same.mem_iff.mpr member) with rfl | later
      · exact le_rfl
      · exact List.rel_of_pairwise_cons ascending later

end OrderedSelection
