import Mathlib.Data.List.Perm.Subperm
import Mathlib.Data.Set.Finite.List
import Mathlib.Order.Bounds.Basic
import Mathlib.Logic.Relation
import Mathlib.Data.Fintype.Order
import Mathlib.Order.WellFounded
import Mathlib.Data.Finite.Defs
import Mathlib.Order.Lattice.Nat

/-! # Layers of a finite dependency graph

A dependency graph is a finite list of nodes with distinct keys, each of which
names the keys of the nodes it depends on. Placing the nodes greedily, layer
after layer, puts a node into the layer whose number is the length of the
longest dependency path ending at it, and reaches every node exactly when all
named dependencies exist and no node depends on itself.
-/

universe u v

theorem exists_minimal_of_acyclic {ν : Type u} {edge : ν → ν → Prop} {nodes : List ν}
    (acyclic : ∀ node, ¬ Relation.TransGen edge node node) (member : ν → Prop)
    (inside : ∀ node, member node → node ∈ nodes) {start : ν} (nonempty : member start) :
    ∃ node, member node ∧ ∀ source, member source → ¬ edge source node := by
  let below : {node // node ∈ nodes} → {node // node ∈ nodes} → Prop :=
    fun left right => Relation.TransGen edge left right
  have finite : Finite {node // node ∈ nodes} := List.finite_toSet nodes
  have transitive : IsTrans _ below := ⟨fun _ _ _ => Relation.TransGen.trans⟩
  have irreflexive : Std.Irrefl below := ⟨fun node => acyclic node⟩
  have wellFounded : WellFounded below := Finite.wellFounded_of_trans_of_irrefl below
  rcases wellFounded.has_min {node | member node} ⟨⟨start, inside start nonempty⟩, nonempty⟩ with
    ⟨least, leastMember, minimal⟩
  refine ⟨least, leastMember, fun source sourceMember edge => ?_⟩
  exact minimal ⟨source, inside source sourceMember⟩ sourceMember (.single edge)

structure DependencyGraph (ν : Type u) (κ : Type v) where
  key : ν → κ
  dependencies : ν → List κ
  nodes : List ν
  distinct : (nodes.map key).Nodup

namespace DependencyGraph

variable {ν : Type u} {κ : Type v} (graph : DependencyGraph ν κ)

def Edge (source target : ν) : Prop :=
  source ∈ graph.nodes ∧ target ∈ graph.nodes ∧
    graph.key source ∈ graph.dependencies target

def Closed : Prop :=
  ∀ node ∈ graph.nodes, ∀ key ∈ graph.dependencies node,
    ∃ source ∈ graph.nodes, graph.key source = key

def Acyclic : Prop :=
  ∀ node, ¬ Relation.TransGen graph.Edge node node

inductive PathTo : Nat → ν → Prop
  | single {node : ν} : node ∈ graph.nodes → PathTo 0 node
  | extend {length : Nat} {source target : ν} :
      PathTo length source → graph.Edge source target → PathTo (length + 1) target

noncomputable def level (node : ν) : Nat :=
  sSup {length | graph.PathTo length node}

variable {graph}

theorem key_injective {left right : ν} (leftMember : left ∈ graph.nodes)
    (rightMember : right ∈ graph.nodes) (equal : graph.key left = graph.key right) :
    left = right :=
  List.inj_on_of_nodup_map graph.distinct leftMember rightMember equal

theorem nodes_nodup : graph.nodes.Nodup :=
  List.Nodup.of_map graph.key graph.distinct

theorem PathTo.of_transGen (path : graph.PathTo length source)
    (chain : Relation.TransGen graph.Edge source target) :
    ∃ longer, length < longer ∧ graph.PathTo longer target := by
  induction chain with
  | single edge => exact ⟨length + 1, by omega, .extend path edge⟩
  | tail _ edge induction =>
      rcases induction with ⟨longer, longerLength, longerPath⟩
      exact ⟨longer + 1, by omega, .extend longerPath edge⟩

variable {node : ν} {left right : DependencyGraph ν κ}

theorem PathTo.transfer (sameKey : left.key = right.key)
    (sameDependencies : left.dependencies = right.dependencies)
    (inside : ∀ node ∈ left.nodes, node ∈ right.nodes) (path : left.PathTo length node) :
    right.PathTo length node := by
  induction path with
  | single member => exact .single (inside _ member)
  | extend _ edge induction =>
      rcases edge with ⟨sourceMember, targetMember, dependency⟩
      rw [sameKey, sameDependencies] at dependency
      exact .extend induction ⟨inside _ sourceMember, inside _ targetMember, dependency⟩

theorem Closed.of_perm (closed : left.Closed) (sameKey : left.key = right.key)
    (sameDependencies : left.dependencies = right.dependencies)
    (perm : left.nodes.Perm right.nodes) : right.Closed := by
  intro node member key dependency
  rw [← sameDependencies] at dependency
  rcases closed node (perm.mem_iff.mpr member) key dependency with ⟨source, sourceMember, equal⟩
  rw [sameKey] at equal
  exact ⟨source, perm.mem_iff.mp sourceMember, equal⟩

theorem Acyclic.of_perm (acyclic : left.Acyclic) (sameKey : left.key = right.key)
    (sameDependencies : left.dependencies = right.dependencies)
    (perm : left.nodes.Perm right.nodes) : right.Acyclic := by
  intro node cycle
  have edges : ∀ source target, right.Edge source target → left.Edge source target := by
    rintro source target ⟨sourceMember, targetMember, dependency⟩
    rw [← sameKey, ← sameDependencies] at dependency
    exact ⟨perm.mem_iff.mpr sourceMember, perm.mem_iff.mpr targetMember, dependency⟩
  exact acyclic node (Relation.TransGen.mono edges _ _ cycle)

theorem level_eq_of_perm {left right : DependencyGraph ν κ} (sameKey : left.key = right.key)
    (sameDependencies : left.dependencies = right.dependencies)
    (perm : left.nodes.Perm right.nodes) (node : ν) : left.level node = right.level node := by
  unfold level
  congr 1
  ext length
  constructor
  · intro path
    exact path.transfer sameKey sameDependencies fun _ member => perm.mem_iff.mp member
  · intro path
    exact path.transfer sameKey.symm sameDependencies.symm fun _ member => perm.mem_iff.mpr member

/-- In an acyclic graph a nonempty set of nodes has a member none of whose
direct dependencies is in the set. -/
theorem Acyclic.exists_minimal (acyclic : graph.Acyclic) (member : ν → Prop)
    (inside : ∀ node, member node → node ∈ graph.nodes)
    {start : ν} (nonempty : member start) :
    ∃ node, member node ∧ ∀ source, member source → ¬ graph.Edge source node :=
  exists_minimal_of_acyclic acyclic member inside nonempty

section Greedy

variable (graph)

def placedBefore (layers : List (List ν)) (index : Nat) : List κ :=
  (layers.take index).flatten.map graph.key

variable {graph} in
theorem mem_placedBefore {layers : List (List ν)} {index : Nat} {key : κ} :
    key ∈ graph.placedBefore layers index ↔
      ∃ earlier < index, ∃ layer, layers[earlier]? = some layer ∧
        ∃ node ∈ layer, graph.key node = key := by
  simp only [placedBefore, List.mem_map, List.mem_flatten, List.mem_take_iff_getElem]
  constructor
  · rintro ⟨node, ⟨layer, ⟨earlier, bound, equal⟩, member⟩, rfl⟩
    refine ⟨earlier, by omega, layer, ?_, node, member, rfl⟩
    rw [List.getElem?_eq_getElem (by omega), equal]
  · rintro ⟨earlier, bound, layer, found, node, member, rfl⟩
    rcases List.getElem?_eq_some_iff.mp found with ⟨inside, equal⟩
    exact ⟨node, ⟨layer, ⟨earlier, by omega, equal⟩, member⟩, rfl⟩

variable [DecidableEq κ]

def ready (placed : List κ) : List ν :=
  graph.nodes.filter fun node =>
    decide (graph.key node ∉ placed ∧ ∀ key ∈ graph.dependencies node, key ∈ placed)

/-- Each layer holds the ready nodes in some order, and the last one leaves no
node ready. -/
inductive Greedy : List κ → List (List ν) → Prop
  | stuck {placed : List κ} : graph.ready placed = [] → Greedy placed []
  | layer {placed : List κ} {layer : List ν} {rest : List (List ν)} :
      layer ≠ [] → layer.Perm (graph.ready placed) →
      Greedy (placed ++ layer.map graph.key) rest → Greedy placed (layer :: rest)

variable {graph}

theorem mem_ready {placed : List κ} {node : ν} :
    node ∈ graph.ready placed ↔
      node ∈ graph.nodes ∧ graph.key node ∉ placed ∧
        ∀ key ∈ graph.dependencies node, key ∈ placed := by
  simp [ready]

namespace Greedy

variable {index : Nat} {layer : List ν} {placed : List κ}

theorem layer_perm (greedy : graph.Greedy placed layers) (found : layers[index]? = some layer) :
    layer.Perm (graph.ready (placed ++ graph.placedBefore layers index)) := by
  induction greedy generalizing index with
  | stuck _ => simp at found
  | @layer placed first rest _ perm _ induction =>
      cases index with
      | zero =>
          obtain rfl : first = layer := by simpa using found
          simpa [placedBefore] using perm
      | succ index =>
          have later := induction (by simpa using found)
          simpa [placedBefore, List.append_assoc] using later

theorem ready_all (greedy : graph.Greedy placed layers) :
    graph.ready (placed ++ layers.flatten.map graph.key) = [] := by
  induction greedy with
  | stuck none => simpa using none
  | layer _ _ _ induction => simpa [List.append_assoc] using induction

theorem flatten_subset (greedy : graph.Greedy placed layers) (member : node ∈ layers.flatten) :
    node ∈ graph.nodes ∧ graph.key node ∉ placed := by
  induction greedy with
  | stuck _ => simp at member
  | layer _ perm _ induction =>
      rw [List.flatten_cons, List.mem_append] at member
      rcases member with first | later
      · have parts := mem_ready.mp (perm.mem_iff.mp first)
        exact ⟨parts.1, parts.2.1⟩
      · have parts := induction later
        simp only [List.mem_append, not_or] at parts
        exact ⟨parts.1, parts.2.1⟩

theorem flatten_nodup (greedy : graph.Greedy placed layers) : layers.flatten.Nodup := by
  induction greedy with
  | stuck _ => simp
  | layer _ perm later induction =>
      rw [List.flatten_cons, List.nodup_append]
      refine ⟨perm.nodup_iff.mpr (nodes_nodup.filter _), induction, ?_⟩
      rintro node first other second rfl
      have parts := later.flatten_subset second
      exact parts.2 (List.mem_append_right _ (List.mem_map_of_mem first))

theorem perm_iff_length (greedy : graph.Greedy [] layers) :
    layers.flatten.Perm graph.nodes ↔ graph.nodes.length ≤ layers.flatten.length := by
  constructor
  · intro perm
    exact perm.length_eq.ge
  · intro long
    have subset : layers.flatten ⊆ graph.nodes :=
      fun node member => (greedy.flatten_subset member).1
    exact (greedy.flatten_nodup.subperm subset).perm_of_length_le long

section Levels

variable {layers : List (List ν)} (greedy : graph.Greedy [] layers)

include greedy

theorem dependency_earlier (found : layers[index]? = some layer) (member : node ∈ layer) {key : κ}
    (dependency : key ∈ graph.dependencies node) :
    ∃ earlier < index, ∃ layer, layers[earlier]? = some layer ∧
      ∃ source ∈ layer, graph.key source = key := by
  have parts := mem_ready.mp ((greedy.layer_perm found).mem_iff.mp member)
  exact mem_placedBefore.mp (by simpa using parts.2.2 key dependency)

theorem mem_nodes (found : layers[index]? = some layer) (member : node ∈ layer) :
    node ∈ graph.nodes :=
  (greedy.flatten_subset (List.mem_flatten.mpr
    ⟨layer, List.mem_of_getElem? found, member⟩)).1

theorem dependency_previous (found : layers[index]? = some layer)
    (foundNext : layers[index + 1]? = some next) (member : node ∈ next) :
    ∃ source ∈ layer, graph.Edge source node := by
  have parts := mem_ready.mp ((greedy.layer_perm foundNext).mem_iff.mp member)
  by_contra none
  push Not at none
  have early : ∀ key ∈ graph.dependencies node, key ∈ graph.placedBefore layers index := by
    intro key dependency
    rcases greedy.dependency_earlier foundNext member dependency with
      ⟨earlier, bound, other, foundOther, source, sourceMember, rfl⟩
    rcases Nat.lt_succ_iff_lt_or_eq.mp bound with before | rfl
    · exact mem_placedBefore.mpr
        ⟨earlier, before, other, foundOther, source, sourceMember, rfl⟩
    · obtain rfl : layer = other := by simpa [found] using foundOther
      exact absurd ⟨greedy.mem_nodes found sourceMember, parts.1, dependency⟩
        (none source sourceMember)
  have unplaced : graph.key node ∉ graph.placedBefore layers index := by
    intro placed
    rcases mem_placedBefore.mp placed with ⟨earlier, bound, rest⟩
    exact parts.2.1 (by simpa using mem_placedBefore.mpr ⟨earlier, by omega, rest⟩)
  have here : node ∈ layer :=
    (greedy.layer_perm found).mem_iff.mpr
      (mem_ready.mpr ⟨parts.1, by simpa using unplaced, by simpa using early⟩)
  have placed : graph.key node ∈ graph.placedBefore layers (index + 1) :=
    mem_placedBefore.mpr ⟨index, by omega, layer, found, node, here, rfl⟩
  exact parts.2.1 (by simpa using placed)

theorem path_exists (found : layers[index]? = some layer) (member : node ∈ layer) :
    graph.PathTo index node := by
  induction index generalizing layer node with
  | zero => exact .single (greedy.mem_nodes found member)
  | succ index induction =>
      rcases List.getElem?_eq_some_iff.mp found with ⟨inside, _⟩
      have insidePrevious : index < layers.length := by omega
      have foundPrevious := List.getElem?_eq_getElem insidePrevious
      rcases greedy.dependency_previous foundPrevious found member with
        ⟨source, sourceMember, edge⟩
      exact .extend (induction foundPrevious sourceMember) edge

theorem path_bound (path : graph.PathTo length node) (found : layers[index]? = some layer)
    (member : node ∈ layer) : length ≤ index := by
  induction path generalizing index layer with
  | single _ => omega
  | @extend length source target _ edge induction =>
      rcases greedy.dependency_earlier found member edge.2.2 with
        ⟨earlier, bound, other, foundOther, candidate, candidateMember, equal⟩
      obtain rfl : candidate = source :=
        key_injective (greedy.mem_nodes foundOther candidateMember) edge.1 equal
      have shorter := induction foundOther candidateMember
      omega

theorem isGreatest_path (found : layers[index]? = some layer) (member : node ∈ layer) :
    IsGreatest {length | graph.PathTo length node} index :=
  ⟨greedy.path_exists found member, fun _ path => greedy.path_bound path found member⟩

theorem level_eq (found : layers[index]? = some layer) (member : node ∈ layer) :
    graph.level node = index :=
  (greedy.isGreatest_path found member).csSup_eq

theorem perm_iff : layers.flatten.Perm graph.nodes ↔ graph.Closed ∧ graph.Acyclic := by
  constructor
  · intro perm
    have located : ∀ node ∈ graph.nodes, ∃ (index : Nat) (layer : List ν),
        layers[index]? = some layer ∧ node ∈ layer := by
      intro node member
      rcases List.mem_flatten.mp (perm.mem_iff.mpr member) with ⟨layer, layerMember, inside⟩
      rcases List.mem_iff_getElem?.mp layerMember with ⟨index, found⟩
      exact ⟨index, layer, found, inside⟩
    constructor
    · intro node member key dependency
      rcases located node member with ⟨index, layer, found, inside⟩
      rcases greedy.dependency_earlier found inside dependency with
        ⟨_, _, _, foundSource, source, sourceMember, equal⟩
      exact ⟨source, greedy.mem_nodes foundSource sourceMember, equal⟩
    · intro node cycle
      have member : node ∈ graph.nodes := by
        cases cycle with
        | single edge => exact edge.2.1
        | tail _ edge => exact edge.2.1
      rcases located node member with ⟨index, layer, found, inside⟩
      rcases (greedy.path_exists found inside).of_transGen cycle with ⟨longer, bound, path⟩
      have short := greedy.path_bound path found inside
      omega
  · rintro ⟨closed, acyclic⟩
    have all : ∀ node ∈ graph.nodes, node ∈ layers.flatten := by
      by_contra missing
      push Not at missing
      rcases missing with ⟨start, startMember, startMissing⟩
      rcases acyclic.exists_minimal (fun node => node ∈ graph.nodes ∧ node ∉ layers.flatten)
          (fun _ parts => parts.1) ⟨startMember, startMissing⟩ with
          ⟨node, ⟨member, absent⟩, minimal⟩
      have isReady : node ∈ graph.ready ([] ++ layers.flatten.map graph.key) := by
        refine mem_ready.mpr ⟨member, ?_, ?_⟩
        · intro placed
          rw [List.nil_append] at placed
          rcases List.mem_map.mp placed with ⟨other, otherMember, equal⟩
          obtain rfl : other = node :=
            key_injective (greedy.flatten_subset otherMember).1 member equal
          exact absent otherMember
        · intro key dependency
          rcases closed node member key dependency with ⟨source, sourceMember, rfl⟩
          by_contra unplaced
          refine minimal source ⟨sourceMember, fun placed => unplaced ?_⟩
            ⟨sourceMember, member, dependency⟩
          exact List.mem_map_of_mem placed
      rw [greedy.ready_all] at isReady
      simp at isReady
    exact (List.perm_ext_iff_of_nodup greedy.flatten_nodup nodes_nodup).mpr fun node =>
      ⟨fun member => (greedy.flatten_subset member).1, all node⟩

end Levels

end Greedy

end Greedy

end DependencyGraph
