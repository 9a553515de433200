import HarnessAgent.Foundation.Layering
import HarnessAgent.Schema.DagNode
import Mathlib.Data.List.AList
import Mathlib.Data.List.Dedup

/-! # Topological layers of a workflow

The layering loop with its in-degree counters, and its agreement with greedy
placement by dependency sets. The counters are compared with the number of
dependency entries that are not placed yet, so an identifier that is named
twice is also counted twice.
-/

namespace HarnessAgent

/-- The ways in which layering can abort. `subtractOverflow` is the checked
subtraction on a counter that is already zero. -/
inductive LayerPanic
  | subtractOverflow
  | runtimeCycle
  | outOfFuel
  deriving DecidableEq, Repr

abbrev Degrees := AList (fun _ : String => Nat)

abbrev Dependents := AList (fun _ : String => List String)

namespace TopologicalLayers

def inDegree (nodes : List DagNode) : Degrees :=
  nodes.foldl (fun degrees node => degrees.insert node.id node.dependsOn.length) ∅

def addDependent (dependent : String) (table : Dependents) (dependency : String) :
    Dependents :=
  table.insert dependency ((table.lookup dependency).getD [] ++ [dependent])

def dependents (nodes : List DagNode) : Dependents :=
  nodes.foldl (fun table node => node.dependsOn.foldl (addDependent node.id) table) ∅

structure Progress where
  inDegree : Degrees
  nextIds : List String

def newDegree (degrees : Degrees) (id : String) : Except LayerPanic Nat :=
  match degrees.lookup id with
  | none => .ok 0
  | some 0 => .error .subtractOverflow
  | some (degree + 1) => .ok degree

def release (progress : Progress) (id : String) : Except LayerPanic Progress := do
  let degree ← newDegree progress.inDegree id
  let inDegree := progress.inDegree.insert id degree
  if degree = 0 then
    return { inDegree, nextIds := progress.nextIds ++ [id] }
  else
    return { inDegree, nextIds := progress.nextIds }

def releaseDependents (table : Dependents) (progress : Progress) (node : DagNode) :
    Except LayerPanic Progress :=
  match table.lookup node.id with
  | none => .ok progress
  | some ids => ids.foldlM release progress

def findNode (nodes : List DagNode) (id : String) : Option DagNode :=
  nodes.find? fun node => node.id = id

/-- The loop over layers. The returned list holds the layers still to be built
from the given ready nodes. -/
def layerLoop (nodes : List DagNode) (table : Dependents) :
    Nat → Degrees → List DagNode → Except LayerPanic (List (List DagNode))
  | _, _, [] => .ok []
  | 0, _, _ :: _ => .error .outOfFuel
  | fuel + 1, degrees, first :: others => do
      let layer := first :: others
      let progress ← layer.foldlM (releaseDependents table)
        { inDegree := degrees, nextIds := [] }
      let rest ← layerLoop nodes table fuel progress.inDegree
        (progress.nextIds.filterMap (findNode nodes))
      return layer :: rest

end TopologicalLayers

open TopologicalLayers in
def buildTopologicalLayers (nodes : List DagNode) :
    Except LayerPanic (List (List DagNode)) := do
  let degrees := inDegree nodes
  let ready := nodes.filter fun node => ((degrees.lookup node.id).getD 0) = 0
  let layers ← layerLoop nodes (dependents nodes) nodes.length degrees ready
  if (layers.map List.length).sum < nodes.length then
    .error .runtimeCycle
  else
    return layers

/-! ## The tables built before the loop -/

namespace TopologicalLayers

variable {nodes : List DagNode}

theorem lookup_inDegree_of_not_mem {degrees : Degrees} {id : String}
    (absent : id ∉ nodes.map DagNode.id) :
    (nodes.foldl (fun degrees node => degrees.insert node.id node.dependsOn.length)
      degrees).lookup id = degrees.lookup id := by
  induction nodes generalizing degrees with
  | nil => rfl
  | cons head tail induction =>
      have parts : id ≠ head.id ∧ id ∉ tail.map DagNode.id := by simpa using absent
      rw [List.foldl_cons, induction parts.2, AList.lookup_insert_ne parts.1]

variable {node : DagNode}

theorem lookup_inDegree (unique : (nodes.map DagNode.id).Nodup) (member : node ∈ nodes) :
    (inDegree nodes).lookup node.id = some node.dependsOn.length := by
  unfold inDegree
  generalize (∅ : Degrees) = degrees
  induction nodes generalizing degrees with
  | nil => simp at member
  | cons head tail induction =>
      have parts : head.id ∉ tail.map DagNode.id ∧ (tail.map DagNode.id).Nodup := by
        simpa using unique
      rcases List.mem_cons.mp member with rfl | later
      · rw [List.foldl_cons, lookup_inDegree_of_not_mem parts.1, AList.lookup_insert]
      · exact induction parts.2 later _

theorem lookup_addDependent (dependencies : List String) (dependent key : String)
    (table : Dependents) :
    ((dependencies.foldl (addDependent dependent) table).lookup key).getD [] =
      (table.lookup key).getD [] ++ List.replicate (dependencies.count key) dependent := by
  induction dependencies generalizing table with
  | nil => simp
  | cons head tail induction =>
      rw [List.foldl_cons, induction, addDependent]
      by_cases equal : head = key
      · subst head
        simp [AList.lookup_insert, List.replicate_succ]
      · rw [AList.lookup_insert_ne (Ne.symm equal), List.count_cons_of_ne equal]

def dependentsOf (nodes : List DagNode) (key : String) : List String :=
  nodes.flatMap fun node => List.replicate (node.dependsOn.count key) node.id

theorem lookup_dependents (nodes : List DagNode) (key : String) :
    ((dependents nodes).lookup key).getD [] = dependentsOf nodes key := by
  suffices general : ∀ table : Dependents,
      ((nodes.foldl (fun table node =>
        node.dependsOn.foldl (addDependent node.id) table) table).lookup key).getD [] =
          (table.lookup key).getD [] ++ dependentsOf nodes key by
    simpa [dependents] using general ∅
  intro table
  induction nodes generalizing table with
  | nil => simp [dependentsOf]
  | cons head tail induction =>
      rw [List.foldl_cons, induction, lookup_addDependent]
      simp [dependentsOf]

theorem releaseDependents_eq (nodes : List DagNode) (progress : Progress) (node : DagNode) :
    releaseDependents (dependents nodes) progress node =
      (dependentsOf nodes node.id).foldlM release progress := by
  rw [← lookup_dependents, releaseDependents]
  cases (dependents nodes).lookup node.id <;> rfl

/-! ## What one placed node releases -/

def openEntries (placed : List String) (node : DagNode) : Nat :=
  node.dependsOn.countP fun key => key ∉ placed

def Tracks (nodes : List DagNode) (placed : List String) (degrees : Degrees) : Prop :=
  ∀ node ∈ nodes, degrees.lookup node.id = some (openEntries placed node)

variable {placed : List String}

theorem openEntries_append (absent : key ∉ placed) (node : DagNode) :
    openEntries placed node =
      openEntries (placed ++ [key]) node + node.dependsOn.count key := by
  unfold openEntries
  induction node.dependsOn with
  | nil => rfl
  | cons head tail induction =>
      rw [List.countP_cons, List.countP_cons, List.count_cons, induction]
      by_cases equal : head = key
      · subst head
        simp [absent]
        omega
      · by_cases member : head ∈ placed
        · simp [member, equal]
        · simp [member, equal]
          omega

theorem openEntries_eq_zero :
    openEntries placed node = 0 ↔ ∀ key ∈ node.dependsOn, key ∈ placed := by
  simp [openEntries]

theorem release_of_lookup {progress : Progress} {id : String} {degree : Nat}
    (found : progress.inDegree.lookup id = some (degree + 1)) :
    release progress id = .ok
      { inDegree := progress.inDegree.insert id degree
        nextIds := progress.nextIds ++ (if degree = 0 then [id] else []) } := by
  have counter : newDegree progress.inDegree id = .ok degree := by
    simp [newDegree, found]
  rw [release, counter]
  change (if degree = 0 then Except.ok _ else Except.ok _) = _
  by_cases last : degree = 0
  · rw [if_pos last, if_pos last]
  · rw [if_neg last, if_neg last, List.append_nil]

/-- Releasing an identifier repeatedly lowers its counter by the number of
repetitions and reports it once, on reaching zero. -/
theorem release_replicate {id : String}
    (found : progress.inDegree.lookup id = some (remaining + count)) :
    ∃ after, (List.replicate count id).foldlM release progress = .ok after ∧
      after.nextIds =
        progress.nextIds ++ (if 0 < count ∧ remaining = 0 then [id] else []) ∧
      after.inDegree.lookup id = some remaining ∧
      ∀ other, other ≠ id → after.inDegree.lookup other = progress.inDegree.lookup other := by
  induction count generalizing progress with
  | zero => exact ⟨progress, rfl, by simp, by simpa using found, fun _ _ => rfl⟩
  | succ count induction =>
      have step := @release_of_lookup progress id (remaining + count) found
      rcases @induction
        { inDegree := progress.inDegree.insert id (remaining + count)
          nextIds := progress.nextIds ++ (if remaining + count = 0 then [id] else []) }
        (AList.lookup_insert progress.inDegree) with
          ⟨after, run, ids, here, elsewhere⟩
      refine ⟨after, ?_, ?_, here, ?_⟩
      · rw [List.replicate_succ, List.foldlM_cons, step]
        exact run
      · rw [ids]
        rcases Nat.eq_zero_or_pos count with zero | positive
        · subst count
          simp
        · simp [positive, positive.ne']
      · intro other different
        rw [elsewhere other different]
        exact AList.lookup_insert_ne different

def releasedBy (nodes : List DagNode) (placed : List String) (key : String) :
    List DagNode :=
  nodes.filter fun node => decide
    (key ∈ node.dependsOn ∧ ∀ dependency ∈ node.dependsOn, dependency ∈ placed ++ [key])

theorem release_dependentsOf (unique : (candidates.map DagNode.id).Nodup) (absent : key ∉ placed)
    (tracks : Tracks candidates placed progress.inDegree) :
    ∃ after, (dependentsOf candidates key).foldlM release progress = .ok after ∧
      after.nextIds =
        progress.nextIds ++ (releasedBy candidates placed key).map DagNode.id ∧
      Tracks candidates (placed ++ [key]) after.inDegree ∧
      ∀ other, other ∉ candidates.map DagNode.id →
        after.inDegree.lookup other = progress.inDegree.lookup other := by
  induction candidates generalizing progress with
  | nil => exact ⟨progress, rfl, by simp [releasedBy], by simp [Tracks], fun _ _ => rfl⟩
  | cons head tail induction =>
      have parts : head.id ∉ tail.map DagNode.id ∧ (tail.map DagNode.id).Nodup := by
        simpa using unique
      have counter := tracks head List.mem_cons_self
      rw [openEntries_append absent] at counter
      rcases release_replicate counter with ⟨middle, runHead, idsHead, here, elsewhere⟩
      have tracksTail : Tracks tail placed middle.inDegree := by
        intro node member
        have different : node.id ≠ head.id := fun equal =>
          parts.1 (equal ▸ List.mem_map_of_mem member)
        rw [elsewhere _ different]
        exact tracks node (List.mem_cons_of_mem _ member)
      rcases induction parts.2 tracksTail with ⟨after, runTail, idsTail, tracksAfter, outside⟩
      refine ⟨after, ?_, ?_, ?_, ?_⟩
      · rw [dependentsOf, List.flatMap_cons, List.foldlM_append, runHead]
        exact runTail
      · rw [idsTail, idsHead, List.append_assoc, releasedBy, releasedBy, List.filter_cons]
        congr 1
        have same : (0 < head.dependsOn.count key ∧ openEntries (placed ++ [key]) head = 0) ↔
            (key ∈ head.dependsOn ∧
              ∀ dependency ∈ head.dependsOn, dependency ∈ placed ++ [key]) := by
          rw [List.count_pos_iff, openEntries_eq_zero]
        by_cases last : key ∈ head.dependsOn ∧
            ∀ dependency ∈ head.dependsOn, dependency ∈ placed ++ [key]
        · rw [if_pos (same.mpr last), if_pos (decide_eq_true last)]
          rfl
        · rw [if_neg (fun holds => last (same.mp holds)), if_neg (by simpa using last)]
          rfl
      · intro node member
        rcases List.mem_cons.mp member with rfl | later
        · rw [outside _ parts.1, here]
        · exact tracksAfter node later
      · intro other absentOther
        have otherParts : other ≠ head.id ∧ other ∉ tail.map DagNode.id := by
          simpa using absentOther
        rw [outside _ otherParts.2, elsewhere _ otherParts.1]

/-! ## What one layer releases -/

def released (nodes : List DagNode) (placed : List String) : List DagNode → List DagNode
  | [] => []
  | node :: rest =>
      releasedBy nodes placed node.id ++ released nodes (placed ++ [node.id]) rest

theorem head_not_placed (fresh : (placed ++ (head :: tail).map DagNode.id).Nodup) :
    head.id ∉ placed :=
  fun member => List.disjoint_of_nodup_append fresh member (by simp)

theorem release_layer {nodes : List DagNode} (unique : (nodes.map DagNode.id).Nodup)
    {placed : List String} {layer : List DagNode}
    (fresh : (placed ++ layer.map DagNode.id).Nodup) {progress : Progress}
    (tracks : Tracks nodes placed progress.inDegree) :
    ∃ after, layer.foldlM (releaseDependents (dependents nodes)) progress = .ok after ∧
      after.nextIds = progress.nextIds ++ (released nodes placed layer).map DagNode.id ∧
      Tracks nodes (placed ++ layer.map DagNode.id) after.inDegree := by
  induction layer generalizing placed progress with
  | nil => exact ⟨progress, rfl, by simp [released], by simpa using tracks⟩
  | cons head tail induction =>
      have absent := head_not_placed fresh
      rcases release_dependentsOf unique absent tracks with
        ⟨middle, runHead, idsHead, tracksMiddle, _⟩
      rcases induction (by simpa using fresh) tracksMiddle with
        ⟨after, runTail, idsTail, tracksAfter⟩
      refine ⟨after, ?_, ?_, by simpa using tracksAfter⟩
      · rw [List.foldlM_cons, releaseDependents_eq, runHead]
        exact runTail
      · rw [idsTail, idsHead, released]
        simp

theorem mem_released (fresh : (placed ++ layer.map DagNode.id).Nodup) :
    node ∈ released nodes placed layer ↔
      node ∈ nodes ∧ (∀ key ∈ node.dependsOn, key ∈ placed ++ layer.map DagNode.id) ∧
        ∃ key ∈ node.dependsOn, key ∉ placed := by
  induction layer generalizing placed with
  | nil =>
      simp only [released, List.not_mem_nil, List.map_nil, List.append_nil, false_iff]
      rintro ⟨_, inside, key, dependency, outside⟩
      exact outside (inside key dependency)
  | cons head tail induction =>
      have absent := head_not_placed fresh
      rw [released, List.mem_append, induction (by simpa using fresh)]
      simp only [releasedBy, List.mem_filter, decide_eq_true_eq, List.map_cons,
        List.append_assoc, List.singleton_append]
      constructor
      · rintro (⟨member, last, inside⟩ | ⟨member, inside, key, dependency, outside⟩)
        · refine ⟨member, fun key dependency => ?_, head.id, last, absent⟩
          have early := inside key dependency
          simp only [List.mem_append, List.mem_singleton] at early
          rcases early with early | rfl <;> simp [*]
        · refine ⟨member, inside, key, dependency, fun early => outside ?_⟩
          exact List.mem_append_left _ early
      · rintro ⟨member, inside, key, dependency, outside⟩
        by_cases early : ∀ key ∈ node.dependsOn, key ∈ placed ++ [head.id]
        · left
          have here := early key dependency
          simp only [List.mem_append, outside, List.mem_singleton, false_or] at here
          exact ⟨member, here ▸ dependency, early⟩
        · right
          push Not at early
          exact ⟨member, inside, early⟩

theorem released_nodup (unique : nodes.Nodup) (fresh : (placed ++ layer.map DagNode.id).Nodup) :
    (released nodes placed layer).Nodup := by
  induction layer generalizing placed with
  | nil => simp [released]
  | cons head tail induction =>
      have freshTail : ((placed ++ [head.id]) ++ tail.map DagNode.id).Nodup := by
        simpa using fresh
      rw [released, List.nodup_append]
      refine ⟨unique.filter _, induction freshTail, ?_⟩
      rintro node first other second rfl
      rcases (mem_released freshTail).mp second with ⟨_, _, key, dependency, outside⟩
      simp only [releasedBy, List.mem_filter, decide_eq_true_eq] at first
      exact outside (first.2.2 key dependency)

theorem filterMap_findNode (unique : (nodes.map DagNode.id).Nodup) {chosen : List DagNode}
    (subset : ∀ node ∈ chosen, node ∈ nodes) :
    (chosen.map DagNode.id).filterMap (findNode nodes) = chosen := by
  have found : ∀ node ∈ nodes, findNode nodes node.id = some node := by
    intro node member
    rw [findNode]
    have existing : (nodes.find? fun other => decide (other.id = node.id)).isSome := by
      rw [List.find?_isSome]
      exact ⟨node, member, by simp⟩
    rcases Option.isSome_iff_exists.mp existing with ⟨other, equal⟩
    have sameId : other.id = node.id := by simpa using List.find?_some equal
    have same : other = node :=
      List.inj_on_of_nodup_map unique (List.mem_of_find?_eq_some equal) member sameId
    rw [equal, same]
  induction chosen with
  | nil => rfl
  | cons head tail induction =>
      rw [List.map_cons, List.filterMap_cons, found head (subset head List.mem_cons_self)]
      rw [induction fun node member => subset node (List.mem_cons_of_mem _ member)]

/-! ## The loop by dependency sets -/

/-- The loop with the counters replaced by the identifiers placed so far. -/
def placementLoop (nodes : List DagNode) :
    Nat → List String → List DagNode → Except LayerPanic (List (List DagNode))
  | _, _, [] => .ok []
  | 0, _, _ :: _ => .error .outOfFuel
  | fuel + 1, placed, first :: others => do
      let layer := first :: others
      let rest ← placementLoop nodes fuel (placed ++ layer.map DagNode.id)
        (released nodes placed layer)
      return layer :: rest

end TopologicalLayers

open TopologicalLayers

def workflowGraph (nodes : List DagNode) (unique : (nodes.map DagNode.id).Nodup) :
    DependencyGraph DagNode String where
  key := DagNode.id
  dependencies := DagNode.dependsOn
  nodes := nodes
  distinct := unique

namespace TopologicalLayers

/-- The placed identifiers belong to nodes, each once, and are closed under
dependencies; the ready nodes are those that can be placed next. -/
structure Frontier (nodes : List DagNode) (unique : (nodes.map DagNode.id).Nodup)
    (placed : List String) (ready : List DagNode) : Prop where
  known : ∀ key ∈ placed, key ∈ nodes.map DagNode.id
  nodup : placed.Nodup
  closed : ∀ node ∈ nodes, node.id ∈ placed → ∀ key ∈ node.dependsOn, key ∈ placed
  ready : ready.Perm ((workflowGraph nodes unique).ready placed)

section Frontier

variable {nodes : List DagNode} {unique : (nodes.map DagNode.id).Nodup}
  {placed : List String} {ready : List DagNode}

theorem Frontier.mem_ready (frontier : Frontier nodes unique placed ready) {node : DagNode} :
    node ∈ ready ↔ node ∈ nodes ∧ node.id ∉ placed ∧
      ∀ key ∈ node.dependsOn, key ∈ placed :=
  frontier.ready.mem_iff.trans DependencyGraph.mem_ready

theorem Frontier.fresh (frontier : Frontier nodes unique placed ready) :
    (placed ++ ready.map DagNode.id).Nodup := by
  rw [List.nodup_append]
  refine ⟨frontier.nodup, ?_, ?_⟩
  · have sublist : (((workflowGraph nodes unique).ready placed).map DagNode.id).Sublist
        (nodes.map DagNode.id) := List.filter_sublist.map _
    exact (frontier.ready.map _).nodup_iff.mpr (unique.sublist sublist)
  · rintro key early other later rfl
    rcases List.mem_map.mp later with ⟨node, member, rfl⟩
    exact (frontier.mem_ready.mp member).2.1 early

theorem Frontier.next (frontier : Frontier nodes unique placed ready) :
    Frontier nodes unique (placed ++ ready.map DagNode.id) (released nodes placed ready) where
  known := by
    intro key member
    rcases List.mem_append.mp member with early | later
    · exact frontier.known key early
    · rcases List.mem_map.mp later with ⟨node, isReady, rfl⟩
      exact List.mem_map_of_mem (frontier.mem_ready.mp isReady).1
  nodup := frontier.fresh
  closed := by
    intro node member isPlaced key dependency
    rcases List.mem_append.mp isPlaced with early | later
    · exact List.mem_append_left _ (frontier.closed node member early key dependency)
    · rcases List.mem_map.mp later with ⟨other, isReady, equal⟩
      have parts := frontier.mem_ready.mp isReady
      obtain rfl : other = node := List.inj_on_of_nodup_map unique parts.1 member equal
      exact List.mem_append_left _ (parts.2.2 key dependency)
  ready := by
    have nodupNodes : nodes.Nodup := List.Nodup.of_map _ unique
    refine (List.perm_ext_iff_of_nodup (released_nodup nodupNodes frontier.fresh)
      (nodupNodes.filter _)).mpr fun node => ?_
    rw [mem_released frontier.fresh]
    refine Iff.trans ?_ (@DependencyGraph.mem_ready _ _ (workflowGraph nodes unique)).symm
    constructor
    · rintro ⟨member, inside, key, dependency, outside⟩
      refine ⟨member, fun isPlaced => outside ?_, inside⟩
      rcases List.mem_append.mp isPlaced with early | later
      · exact frontier.closed node member early key dependency
      · rcases List.mem_map.mp later with ⟨other, isReady, equal⟩
        have parts := frontier.mem_ready.mp isReady
        obtain rfl : other = node := List.inj_on_of_nodup_map unique parts.1 member equal
        exact parts.2.2 key dependency
    · rintro ⟨member, unplaced, inside⟩
      refine ⟨member, inside, ?_⟩
      by_contra none
      push Not at none
      have early : node.id ∉ placed := fun isPlaced =>
        unplaced (List.mem_append_left _ isPlaced)
      have isReady : node ∈ ready := frontier.mem_ready.mpr ⟨member, early, none⟩
      exact unplaced (List.mem_append_right _ (List.mem_map_of_mem isReady))

theorem layerLoop_eq (frontier : Frontier nodes unique placed ready) {degrees : Degrees}
    (tracks : Tracks nodes placed degrees) (fuel : Nat) :
    layerLoop nodes (dependents nodes) fuel degrees ready =
      placementLoop nodes fuel placed ready := by
  induction fuel generalizing placed ready degrees with
  | zero => cases ready <;> rfl
  | succ fuel induction =>
      cases ready with
      | nil => rfl
      | cons head tail =>
          rcases @release_layer nodes unique placed (head :: tail) frontier.fresh
              { inDegree := degrees, nextIds := [] } tracks with
              ⟨after, run, ids, tracksAfter⟩
          have chosen : after.nextIds.filterMap (findNode nodes) =
              released nodes placed (head :: tail) := by
            rw [ids, List.nil_append]
            exact filterMap_findNode unique fun node member =>
              ((mem_released frontier.fresh).mp member).1
          rw [layerLoop, placementLoop, run]
          change (do
            let rest ← layerLoop nodes (dependents nodes) fuel after.inDegree
              (after.nextIds.filterMap (findNode nodes))
            return (head :: tail) :: rest) = _
          rw [chosen, induction frontier.next tracksAfter]

theorem placementLoop_greedy (frontier : Frontier nodes unique placed ready)
    (enough : nodes.length ≤ fuel + placed.length) :
    ∃ layers, placementLoop nodes fuel placed ready = .ok layers ∧
      (workflowGraph nodes unique).Greedy placed layers := by
  induction fuel generalizing placed ready with
  | zero =>
      have long : (nodes.map DagNode.id).length ≤ placed.length := by simpa using enough
      have all := ((frontier.nodup.subperm frontier.known).perm_of_length_le long)
      have none : ready = [] := by
        rw [List.eq_nil_iff_forall_not_mem]
        intro node member
        have parts := frontier.mem_ready.mp member
        exact parts.2.1 (all.mem_iff.mpr (List.mem_map_of_mem parts.1))
      subst ready
      exact ⟨[], rfl, .stuck frontier.ready.nil_eq.symm⟩
  | succ fuel induction =>
      cases ready with
      | nil => exact ⟨[], rfl, .stuck frontier.ready.nil_eq.symm⟩
      | cons head tail =>
          rcases induction frontier.next
            (by simp only [List.length_append, List.length_map, List.length_cons]; omega) with
              ⟨rest, run, greedy⟩
          refine ⟨(head :: tail) :: rest, ?_, .layer (by simp) frontier.ready greedy⟩
          rw [placementLoop, run]
          rfl

end Frontier

theorem tracks_inDegree (unique : (nodes.map DagNode.id).Nodup) :
    Tracks nodes [] (inDegree nodes) := by
  intro node member
  simp [lookup_inDegree unique member, openEntries]

def roots (nodes : List DagNode) : List DagNode :=
  nodes.filter fun node => node.dependsOn = []

theorem filter_inDegree (unique : (nodes.map DagNode.id).Nodup) :
    (nodes.filter fun node => (((inDegree nodes).lookup node.id).getD 0) = 0) =
      roots nodes := by
  refine List.filter_congr fun node member => ?_
  simp [lookup_inDegree unique member]

theorem frontier_roots (unique : (nodes.map DagNode.id).Nodup) :
    Frontier nodes unique [] (roots nodes) where
  known := by simp
  nodup := List.nodup_nil
  closed := by simp
  ready := by
    refine .of_eq (List.filter_congr fun node _ => ?_)
    simp [workflowGraph, List.eq_nil_iff_forall_not_mem]

theorem build_eq_placement (unique : (nodes.map DagNode.id).Nodup) :
    buildTopologicalLayers nodes = do
      let layers ← placementLoop nodes nodes.length [] (roots nodes)
      if (layers.map List.length).sum < nodes.length then
        .error .runtimeCycle
      else
        return layers := by
  rw [buildTopologicalLayers, filter_inDegree unique,
    layerLoop_eq (frontier_roots unique) (tracks_inDegree unique)]

theorem build_greedy (unique : (nodes.map DagNode.id).Nodup) :
    ∃ layers, (workflowGraph nodes unique).Greedy [] layers ∧
      buildTopologicalLayers nodes =
        if layers.flatten.Perm nodes then .ok layers else .error .runtimeCycle := by
  obtain ⟨layers, run, greedy⟩ :=
    placementLoop_greedy (frontier_roots unique) (show nodes.length ≤ nodes.length + 0 by omega)
  refine ⟨layers, greedy, ?_⟩
  rw [build_eq_placement unique, run]
  change (if (layers.map List.length).sum < nodes.length then Except.error LayerPanic.runtimeCycle
    else Except.ok layers) = _
  have complete : layers.flatten.Perm nodes ↔ nodes.length ≤ layers.flatten.length :=
    greedy.perm_iff_length
  rw [← List.length_flatten]
  by_cases short : layers.flatten.length < nodes.length
  · rw [if_pos short, if_neg fun perm => by have := complete.mp perm; omega]
  · rw [if_neg short, if_pos (complete.mpr (by omega))]

theorem greedy_of_build (unique : (nodes.map DagNode.id).Nodup)
    (built : buildTopologicalLayers nodes = .ok layers) :
    (workflowGraph nodes unique).Greedy [] layers ∧ layers.flatten.Perm nodes := by
  rcases build_greedy unique with ⟨greedyLayers, greedy, run⟩
  rw [run] at built
  by_cases complete : greedyLayers.flatten.Perm nodes
  · rw [if_pos complete] at built
    cases built
    exact ⟨greedy, complete⟩
  · rw [if_neg complete] at built
    cases built

theorem build_ok_iff (unique : (nodes.map DagNode.id).Nodup) :
    (∃ layers, buildTopologicalLayers nodes = .ok layers) ↔
      (workflowGraph nodes unique).Closed ∧ (workflowGraph nodes unique).Acyclic := by
  constructor
  · rintro ⟨layers, built⟩
    rcases greedy_of_build unique built with ⟨greedy, complete⟩
    exact greedy.perm_iff.mp complete
  · intro wellFormed
    rcases build_greedy unique with ⟨layers, greedy, run⟩
    exact ⟨layers, by rw [run]; exact if_pos (greedy.perm_iff.mpr wellFormed)⟩

/-! ## Repeated dependencies -/

section Repetition

variable {nodes : List DagNode} {change : DagNode → DagNode}

def KeepsDependencies (nodes : List DagNode) (change : DagNode → DagNode) : Prop :=
  ∀ node ∈ nodes, (change node).id = node.id ∧
    ∀ key, key ∈ (change node).dependsOn ↔ key ∈ node.dependsOn

theorem map_id_change (keeps : KeepsDependencies nodes change) {chosen : List DagNode}
    (subset : ∀ node ∈ chosen, node ∈ nodes) :
    (chosen.map change).map DagNode.id = chosen.map DagNode.id := by
  rw [List.map_map]
  exact List.map_congr_left fun node member => (keeps node (subset node member)).1

theorem releasedBy_change (keeps : KeepsDependencies nodes change) (placed : List String)
    (key : String) :
    releasedBy (nodes.map change) placed key = (releasedBy nodes placed key).map change := by
  rw [releasedBy, releasedBy, List.filter_map]
  congr 1
  refine List.filter_congr fun node member => ?_
  simp [(keeps node member).2]

theorem released_change (keeps : KeepsDependencies nodes change)
    (subset : ∀ node ∈ layer, node ∈ nodes) (placed : List String) :
    released (nodes.map change) placed (layer.map change) =
      (released nodes placed layer).map change := by
  induction layer generalizing placed with
  | nil => rfl
  | cons head tail induction =>
      have sameId := (keeps head (subset head List.mem_cons_self)).1
      have tailSubset : ∀ node ∈ tail, node ∈ nodes :=
        fun node member => subset node (List.mem_cons_of_mem _ member)
      rw [List.map_cons, released, released, sameId, releasedBy_change keeps,
        induction tailSubset, List.map_append]

theorem released_subset (placed : List String) (layer : List DagNode) :
    ∀ node ∈ released nodes placed layer, node ∈ nodes := by
  induction layer generalizing placed with
  | nil => simp [released]
  | cons head tail induction =>
      intro node member
      rcases List.mem_append.mp member with first | later
      · exact List.mem_of_mem_filter first
      · exact induction _ node later

theorem placementLoop_change (keeps : KeepsDependencies nodes change) {ready : List DagNode}
    (subset : ∀ node ∈ ready, node ∈ nodes) (fuel : Nat) (placed : List String) :
    placementLoop (nodes.map change) fuel placed (ready.map change) =
      (placementLoop nodes fuel placed ready).map (List.map (List.map change)) := by
  induction fuel generalizing placed ready with
  | zero => cases ready <;> rfl
  | succ fuel induction =>
      cases ready with
      | nil => rfl
      | cons head tail =>
          rw [List.map_cons, placementLoop, placementLoop, ← List.map_cons,
            map_id_change keeps subset, released_change keeps subset,
            induction (released_subset _ _)]
          cases placementLoop nodes fuel (placed ++ (head :: tail).map DagNode.id)
            (released nodes placed (head :: tail)) <;> rfl

theorem build_change (unique : (nodes.map DagNode.id).Nodup)
    (keeps : KeepsDependencies nodes change) :
    buildTopologicalLayers (nodes.map change) =
      (buildTopologicalLayers nodes).map (List.map (List.map change)) := by
  have uniqueChanged : ((nodes.map change).map DagNode.id).Nodup := by
    rw [map_id_change keeps fun _ member => member]
    exact unique
  have rootsChanged : roots (nodes.map change) = (roots nodes).map change := by
    rw [roots, roots, List.filter_map]
    congr 1
    refine List.filter_congr fun node member => ?_
    simp [List.eq_nil_iff_forall_not_mem, (keeps node member).2]
  have rootsSubset : ∀ node ∈ roots nodes, node ∈ nodes :=
    fun _ member => List.mem_of_mem_filter member
  rw [build_eq_placement unique, build_eq_placement uniqueChanged, rootsChanged,
    List.length_map, placementLoop_change keeps rootsSubset]
  cases placementLoop nodes nodes.length [] (roots nodes) with
  | error panic => rfl
  | ok layers =>
      have sameCount : ((layers.map (List.map change)).map List.length).sum =
          (layers.map List.length).sum := by
        simp [Function.comp_def]
      change (if ((layers.map (List.map change)).map List.length).sum < nodes.length
        then _ else _) = Except.map _ (if (layers.map List.length).sum < nodes.length
        then _ else _)
      rw [sameCount]
      by_cases short : (layers.map List.length).sum < nodes.length
      · rw [if_pos short, if_pos short]
        rfl
      · rw [if_neg short, if_neg short]
        rfl

end Repetition

end TopologicalLayers

/-- Layering succeeds exactly on closed acyclic workflows, and then puts every
node once, into the layer numbered by its longest dependency path. Only the
sets of dependencies matter. -/
theorem buildTopologicalLayers_correct (nodes : List DagNode)
    (unique : (nodes.map DagNode.id).Nodup) :
    ((∃ layers, buildTopologicalLayers nodes = .ok layers) ↔
      (workflowGraph nodes unique).Closed ∧ (workflowGraph nodes unique).Acyclic) ∧
    (∀ panic, buildTopologicalLayers nodes = .error panic → panic = .runtimeCycle) ∧
    (∀ layers, buildTopologicalLayers nodes = .ok layers →
      layers.flatten.Perm nodes ∧
      (∀ node ∈ nodes, ∀ index : Nat,
        (∃ layer, layers[index]? = some layer ∧ node ∈ layer) ↔
          IsGreatest {length | (workflowGraph nodes unique).PathTo length node} index) ∧
      (∀ (index : Nat) (layer : List DagNode), layers[index]? = some layer →
        ∀ node ∈ layer, ∀ key ∈ node.dependsOn,
          ∃ earlier < index, ∃ before, layers[earlier]? = some before ∧
            ∃ source ∈ before, source.id = key)) ∧
    (∀ change : DagNode → DagNode,
      (∀ node ∈ nodes, (change node).id = node.id ∧
        ∀ key, key ∈ (change node).dependsOn ↔ key ∈ node.dependsOn) →
      buildTopologicalLayers (nodes.map change) =
        (buildTopologicalLayers nodes).map (List.map (List.map change))) := by
  refine ⟨build_ok_iff unique, ?_, ?_, fun change keeps => build_change unique keeps⟩
  · intro panic error
    rcases build_greedy unique with ⟨layers, greedy, run⟩
    rw [run] at error
    by_cases complete : layers.flatten.Perm nodes
    · rw [if_pos complete] at error
      cases error
    · rw [if_neg complete] at error
      exact (Except.error.inj error).symm
  · intro layers built
    rcases greedy_of_build unique built with ⟨greedy, complete⟩
    refine ⟨complete, fun node member index => ?_,
      fun index layer found node inside key dependency =>
        greedy.dependency_earlier found inside dependency⟩
    constructor
    · rintro ⟨layer, found, inside⟩
      exact greedy.isGreatest_path found inside
    · intro greatest
      rcases List.mem_flatten.mp (complete.mem_iff.mpr member) with ⟨layer, layerMember, inside⟩
      rcases List.mem_iff_getElem?.mp layerMember with ⟨place, found⟩
      have same : index = place := greatest.unique (greedy.isGreatest_path found inside)
      exact ⟨layer, same ▸ found, inside⟩

namespace TopologicalLayers

def diamond : List DagNode :=
  [.prompt { base := { id := "a" }, prompt := "p" },
    .prompt { base := { id := "d", dependsOn := ["b", "c", "b"] }, prompt := "p" },
    .prompt { base := { id := "b", dependsOn := ["a"] }, prompt := "p" },
    .prompt { base := { id := "c", dependsOn := ["a"] }, prompt := "p" }]

end TopologicalLayers

theorem buildTopologicalLayers_correct_diamond :
    ∃ unique : (diamond.map DagNode.id).Nodup,
      (buildTopologicalLayers diamond).map (List.map (List.map DagNode.id)) =
        .ok [["a"], ["b", "c"], ["d"]] ∧
      (workflowGraph diamond unique).Closed ∧ (workflowGraph diamond unique).Acyclic := by
  have unique : (diamond.map DagNode.id).Nodup := by decide
  have layers : (buildTopologicalLayers diamond).toBool := by decide
  refine ⟨unique, by decide, (buildTopologicalLayers_correct diamond unique).1.mp ?_⟩
  cases run : buildTopologicalLayers diamond with
  | error panic => rw [run] at layers; cases layers
  | ok layers => exact ⟨layers, rfl⟩

end HarnessAgent
