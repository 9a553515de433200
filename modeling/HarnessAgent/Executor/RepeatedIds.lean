import HarnessAgent.Executor.TopologicalLayers
import Mathlib.Algebra.BigOperators.Group.List.Basic

/-! # Layers of any list of nodes

Layering without the assumption that identifiers are distinct or that named
dependencies exist. A node that names another one twice, or that names a node whose
identifier occurs twice, is released twice; the counter of an identifier is that of the
last node that has it, and an identifier that is released stands for the first.
-/

namespace HarnessAgent

namespace TopologicalLayers

/-! ## Counters -/

def counter (degrees : Degrees) (id : String) : Nat :=
  (degrees.lookup id).getD 0

/-- What releasing identifiers has done: each lowers its counter, and those whose counter
has come to zero are next. -/
structure Released (ids : List String) (before after : Progress) : Prop where
  known : ∀ id, (before.inDegree.lookup id).isSome = true → (after.inDegree.lookup id).isSome = true
  counters : ∀ id, counter after.inDegree id + ids.count id = counter before.inDegree id
  next : ∃ added, after.nextIds = before.nextIds ++ added ∧ added.Nodup ∧
    ∀ id, id ∈ added ↔ id ∈ ids ∧ counter after.inDegree id = 0

theorem counter_insert (degrees : Degrees) (id other : String) (degree : Nat) :
    counter (degrees.insert id degree) other =
      if other = id then degree else counter degrees other := by
  rw [counter]
  split
  next same =>
    subst same
    rw [AList.lookup_insert]
    rfl
  next different => rw [AList.lookup_insert_ne different, counter]

theorem counter_of_lookup {id : String} (found : degrees.lookup id = some degree) :
    counter degrees id = degree := by
  rw [counter, found]
  rfl

theorem Released.cons {id : String} {rest : List String} {before after : Progress} {degree : Nat}
    (found : before.inDegree.lookup id = some (degree + 1))
    (onward : Released rest
      { inDegree := before.inDegree.insert id degree
        nextIds := before.nextIds ++ (if degree = 0 then [id] else []) } after) :
    Released (id :: rest) before after := by
  have start := counter_of_lookup found
  have lowered : ∀ other, counter after.inDegree other + rest.count other =
      if other = id then degree else counter before.inDegree other := by
    intro other
    rw [onward.counters other, counter_insert]
  rcases onward.next with ⟨added, nextIds, nodup, members⟩
  constructor
  case known =>
    intro other known
    apply onward.known
    by_cases same : other = id
    · rw [same, AList.lookup_insert]
      rfl
    · rwa [AList.lookup_insert_ne same]
  case counters =>
    intro other
    have here := lowered other
    by_cases same : other = id
    · subst same
      rw [if_pos rfl] at here
      rw [List.count_cons_self, start]
      omega
    · rw [if_neg same] at here
      rw [List.count_cons_of_ne (Ne.symm same)]
      exact here
  case next =>
    have here := lowered id
    rw [if_pos rfl] at here
    by_cases last : degree = 0
    · have absent : id ∉ rest := List.count_eq_zero.mp (by omega)
      refine ⟨id :: added, by simp [nextIds, last], List.nodup_cons.mpr ⟨?_, nodup⟩, ?_⟩
      · intro member
        exact absent ((members id).mp member).1
      · intro other
        by_cases same : other = id
        · subst same
          simp only [List.mem_cons, true_or, true_and, true_iff]
          omega
        · simp only [List.mem_cons, same, false_or]
          exact members other
    · refine ⟨added, by simp [nextIds, last], nodup, ?_⟩
      intro other
      rw [members other]
      by_cases same : other = id
      · subst same
        constructor
        · intro parts
          exact ⟨List.mem_cons_self, parts.2⟩
        · intro parts
          exact ⟨List.count_pos_iff.mp (by omega), parts.2⟩
      · simp only [List.mem_cons, same, false_or]

variable {ids : List String}

theorem released_of_ok (known : ∀ id ∈ ids, (before.inDegree.lookup id).isSome = true)
    (ran : ids.foldlM release before = .ok after) : Released ids before after := by
  induction ids generalizing before with
  | nil =>
      cases ran
      exact ⟨fun _ known => known, fun _ => rfl, [], by simp, List.nodup_nil, by simp⟩
  | cons id rest later =>
      rcases Option.isSome_iff_exists.mp (known id List.mem_cons_self) with ⟨degree, found⟩
      rw [List.foldlM_cons] at ran
      cases degree with
      | zero =>
          have overflow : release before id = .error .subtractOverflow := by
            simp [release, newDegree, found]
            rfl
          rw [overflow] at ran
          cases ran
      | succ degree =>
          rw [release_of_lookup found] at ran
          apply Released.cons found
          apply later
          · intro other member
            by_cases same : other = id
            · rw [same, AList.lookup_insert]
              rfl
            · rw [AList.lookup_insert_ne same]
              exact known other (List.mem_cons_of_mem _ member)
          · exact ran

/-- Releasing goes through unless a counter is too small. -/
theorem exists_released (known : ∀ id ∈ ids, (before.inDegree.lookup id).isSome = true)
    (enough : ∀ id, ids.count id ≤ counter before.inDegree id) :
    ∃ after, ids.foldlM release before = .ok after := by
  induction ids generalizing before with
  | nil => exact ⟨before, rfl⟩
  | cons id rest later =>
      rcases Option.isSome_iff_exists.mp (known id List.mem_cons_self) with ⟨degree, found⟩
      have start := counter_of_lookup found
      cases degree with
      | zero =>
          have first := enough id
          rw [List.count_cons_self] at first
          omega
      | succ degree =>
          rw [List.foldlM_cons, release_of_lookup found]
          apply later
          · intro other member
            by_cases same : other = id
            · rw [same, AList.lookup_insert]
              rfl
            · rw [AList.lookup_insert_ne same]
              exact known other (List.mem_cons_of_mem _ member)
          · intro other
            have here := enough other
            rw [counter_insert]
            by_cases same : other = id
            · subst same
              rw [List.count_cons_self] at here
              rw [if_pos rfl]
              omega
            · rw [List.count_cons_of_ne (Ne.symm same)] at here
              rw [if_neg same]
              exact here

/-! ## One layer -/

def releasesOf (nodes : List DagNode) (layer : List DagNode) : List String :=
  layer.flatMap fun node => dependentsOf nodes node.id

theorem releaseLayer_eq (nodes layer : List DagNode) (progress : Progress) :
    layer.foldlM (releaseDependents (dependents nodes)) progress =
      (releasesOf nodes layer).foldlM release progress := by
  induction layer generalizing progress with
  | nil => rfl
  | cons node rest later =>
      rw [releasesOf, List.flatMap_cons, List.foldlM_append, List.foldlM_cons,
        releaseDependents_eq]
      congr 1
      funext between
      exact later between

theorem mem_dependentsOf {nodes : List DagNode} {key id : String} :
    id ∈ dependentsOf nodes key ↔ ∃ node ∈ nodes, key ∈ node.dependsOn ∧ node.id = id := by
  simp only [dependentsOf, List.mem_flatMap, List.mem_replicate, ne_eq, List.count_eq_zero,
    Decidable.not_not]
  constructor
  · rintro ⟨node, member, named, rfl⟩
    exact ⟨node, member, named, rfl⟩
  · rintro ⟨node, member, named, rfl⟩
    exact ⟨node, member, named, rfl⟩

/-- How often a node is placed once the counter of its identifier is zero: all nodes that
start with a counter of zero are, and of others the first with the identifier. -/
def share (nodes : List DagNode) (degrees : Degrees) (node : DagNode) : Nat :=
  if counter degrees node.id ≠ 0 then 0
  else if counter (inDegree nodes) node.id = 0 then nodes.count node
  else if findNode nodes node.id = some node then 1
  else 0

theorem share_le (nodes : List DagNode) (degrees : Degrees) (node : DagNode) :
    share nodes degrees node ≤ nodes.count node := by
  rw [share]
  split
  · exact Nat.zero_le _
  · split
    · exact Nat.le_refl _
    · split
      next found => exact List.count_pos_iff.mpr (List.mem_of_find?_eq_some found)
      next => exact Nat.zero_le _

structure Placement (nodes placed ready : List DagNode) (degrees : Degrees) : Prop where
  known : ∀ node ∈ nodes, (degrees.lookup node.id).isSome = true
  counters : ∀ id, counter degrees id + (releasesOf nodes placed).count id =
    counter (inDegree nodes) id
  counts : ∀ node, (placed ++ ready).count node = share nodes degrees node

section Placement

variable {nodes placed ready : List DagNode} {degrees : Degrees}

theorem Placement.counter_ready (placement : Placement nodes placed ready degrees)
    (member : node ∈ ready) : counter degrees node.id = 0 := by
  have counts := placement.counts node
  have positive : 0 < (placed ++ ready).count node :=
    List.count_pos_iff.mpr (List.mem_append_right _ member)
  by_contra isOpen
  rw [share, if_pos isOpen] at counts
  omega

theorem Placement.subperm (placement : Placement nodes placed ready degrees) :
    (placed ++ ready).Subperm nodes := by
  rw [List.subperm_iff_count]
  intro node
  rw [placement.counts node]
  exact share_le nodes degrees node

theorem Placement.known_releases (placement : Placement nodes placed ready degrees)
    (layer : List DagNode) :
    ∀ id ∈ releasesOf nodes layer, (degrees.lookup id).isSome = true := by
  intro id member
  rcases List.mem_flatMap.mp member with ⟨source, -, released⟩
  rcases mem_dependentsOf.mp released with ⟨node, inside, -, rfl⟩
  exact placement.known node inside

theorem count_findNode (nodup : ids.Nodup) (nodes : List DagNode) (node : DagNode) :
    (ids.filterMap (findNode nodes)).count node =
      if node.id ∈ ids ∧ findNode nodes node.id = some node then 1 else 0 := by
  have sameId : ∀ id, findNode nodes id = some node → node.id = id := by
    intro id found
    simpa using List.find?_some found
  induction ids with
  | nil => simp
  | cons id rest later =>
      rw [List.nodup_cons] at nodup
      have counted := later nodup.2
      rw [List.filterMap_cons]
      by_cases same : node.id = id
      · subst same
        rw [if_neg (by simp [nodup.1])] at counted
        cases found : findNode nodes node.id with
        | none => simp [counted]
        | some other =>
            by_cases equal : other = node
            · simp [equal, counted]
            · simp [equal, counted]
      · simp only [List.mem_cons, same, false_or]
        cases found : findNode nodes id with
        | none => exact counted
        | some other =>
            have different : other ≠ node := by
              intro equal
              exact same (sameId id (by rw [found, equal]))
            dsimp only
            rw [List.count_cons_of_ne different]
            exact counted

theorem Placement.next (placement : Placement nodes placed ready degrees) {after : Progress}
    (released : Released (releasesOf nodes ready) { inDegree := degrees, nextIds := [] } after) :
    Placement nodes (placed ++ ready) (after.nextIds.filterMap (findNode nodes))
      after.inDegree := by
  rcases released.next with ⟨added, nextIds, nodup, members⟩
  rw [List.nil_append] at nextIds
  constructor
  case known =>
    intro node member
    exact released.known node.id (placement.known node member)
  case counters =>
    intro id
    have now := released.counters id
    have earlier := placement.counters id
    rw [releasesOf, List.flatMap_append, List.count_append]
    rw [releasesOf] at now earlier
    dsimp only at now
    omega
  case counts =>
    intro node
    have now := released.counters node.id
    have start := placement.counters node.id
    have isNext := members node.id
    dsimp only at now
    rw [List.count_append, placement.counts node, nextIds, count_findNode nodup]
    by_cases zero : counter degrees node.id = 0
    · have absent : node.id ∉ releasesOf nodes ready := List.count_eq_zero.mp (by omega)
      have still : counter after.inDegree node.id = 0 := by omega
      rw [if_neg (fun parts => absent (isNext.mp parts.1).1), share, share, zero, still,
        Nat.add_zero]
    · rw [share, if_pos zero, Nat.zero_add, share]
      by_cases isOpen : counter after.inDegree node.id = 0
      · have member : node.id ∈ added := by
          rw [isNext]
          exact ⟨List.count_pos_iff.mp (by omega), isOpen⟩
        have started : counter (inDegree nodes) node.id ≠ 0 := by omega
        simp only [member, true_and, isOpen, ne_eq, not_true_eq_false, if_false, started]
      · rw [if_neg (fun parts => isOpen (isNext.mp parts.1).2), if_pos isOpen]

end Placement

/-! ## The loop -/

section Loop

variable {nodes placed ready : List DagNode} {degrees : Degrees} {fuel : Nat}
  {layers : List (List DagNode)}

theorem layerLoop_cons (placement : Placement nodes placed (first :: others) degrees)
    (ran : layerLoop nodes (dependents nodes) (fuel + 1) degrees (first :: others) = .ok layers) :
    ∃ after rest, layers = (first :: others) :: rest ∧
      Released (releasesOf nodes (first :: others)) { inDegree := degrees, nextIds := [] } after ∧
      layerLoop nodes (dependents nodes) fuel after.inDegree
        (after.nextIds.filterMap (findNode nodes)) = .ok rest := by
  rw [layerLoop, releaseLayer_eq] at ran
  cases step : (releasesOf nodes (first :: others)).foldlM release
      { inDegree := degrees, nextIds := [] } with
  | error panic =>
      rw [step] at ran
      cases ran
  | ok after =>
      rw [step] at ran
      have released := released_of_ok (placement.known_releases _) step
      cases onward : layerLoop nodes (dependents nodes) fuel after.inDegree
          (after.nextIds.filterMap (findNode nodes)) with
      | error panic =>
          change (do
            let rest ← layerLoop nodes (dependents nodes) fuel after.inDegree
              (after.nextIds.filterMap (findNode nodes))
            return (first :: others) :: rest) = _ at ran
          rw [onward] at ran
          cases ran
      | ok rest =>
          change (do
            let rest ← layerLoop nodes (dependents nodes) fuel after.inDegree
              (after.nextIds.filterMap (findNode nodes))
            return (first :: others) :: rest) = _ at ran
          rw [onward] at ran
          cases ran
          exact ⟨after, rest, rfl, released, onward⟩

theorem layerLoop_placement (placement : Placement nodes placed ready degrees)
    (ran : layerLoop nodes (dependents nodes) fuel degrees ready = .ok layers) :
    ∃ final, Placement nodes (placed ++ layers.flatten) [] final := by
  induction fuel generalizing placed ready degrees layers with
  | zero =>
      cases ready with
      | nil =>
          cases ran
          exact ⟨degrees, by simpa using placement⟩
      | cons first others => cases ran
  | succ fuel later =>
      cases ready with
      | nil =>
          cases ran
          exact ⟨degrees, by simpa using placement⟩
      | cons first others =>
          rcases layerLoop_cons placement ran with ⟨after, rest, rfl, released, onward⟩
          rcases later (placement.next released) onward with ⟨final, placement⟩
          refine ⟨final, ?_⟩
          rwa [List.flatten_cons, ← List.append_assoc]

theorem not_released_of_zero {id : String} (placement : Placement nodes placed ready degrees)
    (ran : layerLoop nodes (dependents nodes) fuel degrees ready = .ok layers)
    (zero : counter degrees id = 0) (inside : layer ∈ layers) (member : source ∈ layer) :
    id ∉ dependentsOf nodes source.id := by
  induction fuel generalizing placed ready degrees layers with
  | zero =>
      cases ready with
      | nil =>
          cases ran
          cases inside
      | cons first others => cases ran
  | succ fuel later =>
      cases ready with
      | nil =>
          cases ran
          cases inside
      | cons first others =>
          rcases layerLoop_cons placement ran with ⟨after, rest, rfl, released, onward⟩
          have lowered := released.counters id
          dsimp only at lowered
          rcases List.mem_cons.mp inside with rfl | inside
          · have absent : id ∉ releasesOf nodes (first :: others) :=
              List.count_eq_zero.mp (by omega)
            intro released
            exact absent (List.mem_flatMap.mpr ⟨source, member, released⟩)
          · exact later (placement.next released) onward (by omega) inside

theorem layerLoop_order (placement : Placement nodes placed ready degrees)
    (ran : layerLoop nodes (dependents nodes) fuel degrees ready = .ok layers)
    {earlier later : Nat} {sources targets : List DagNode} {source target : DagNode}
    (foundSource : layers[earlier]? = some sources) (sourceMember : source ∈ sources)
    (foundTarget : layers[later]? = some targets) (targetMember : target ∈ targets)
    (known : target ∈ nodes) (named : source.id ∈ target.dependsOn) : earlier < later := by
  have releases : target.id ∈ dependentsOf nodes source.id :=
    mem_dependentsOf.mpr ⟨target, known, named, rfl⟩
  induction fuel generalizing placed ready degrees layers earlier later with
  | zero =>
      cases ready with
      | nil =>
          cases ran
          cases foundSource
      | cons first others => cases ran
  | succ fuel induction =>
      cases ready with
      | nil =>
          cases ran
          cases foundSource
      | cons first others =>
          rcases layerLoop_cons placement ran with ⟨after, rest, rfl, released, onward⟩
          cases later with
          | zero =>
              cases foundTarget
              have zero := placement.counter_ready targetMember
              exact absurd releases (not_released_of_zero placement ran zero
                (List.mem_of_getElem? foundSource) sourceMember)
          | succ later =>
              cases earlier with
              | zero => exact Nat.succ_pos later
              | succ earlier =>
                  exact Nat.succ_lt_succ (induction (placement.next released) onward
                    (by simpa using foundSource) (by simpa using foundTarget))

end Loop

variable {node : DagNode}

theorem isSome_lookup_inDegree {nodes : List DagNode} {degrees : Degrees}
    (known : node ∈ nodes ∨ (degrees.lookup node.id).isSome = true) :
    ((nodes.foldl (fun degrees node => degrees.insert node.id node.dependsOn.length)
      degrees).lookup node.id).isSome = true := by
  induction nodes generalizing degrees with
  | nil => simpa using known
  | cons head tail later =>
      rw [List.foldl_cons]
      apply later
      by_cases same : node.id = head.id
      · right
        rw [same, AList.lookup_insert]
        rfl
      · rw [AList.lookup_insert_ne same]
        rcases known with member | found
        · rcases List.mem_cons.mp member with rfl | member
          · exact absurd rfl same
          · exact Or.inl member
        · exact Or.inr found

theorem placement_start (nodes : List DagNode) :
    Placement nodes [] (nodes.filter fun node => ((inDegree nodes).lookup node.id).getD 0 = 0)
      (inDegree nodes) where
  known := fun node member => isSome_lookup_inDegree (Or.inl member)
  counters := fun id => rfl
  counts := by
    intro node
    rw [List.nil_append, share]
    by_cases zero : counter (inDegree nodes) node.id = 0
    · rw [if_neg (by simpa using zero), if_pos zero]
      exact List.count_filter (by simpa [counter] using zero)
    · rw [if_pos zero, List.count_eq_zero]
      intro member
      exact zero (of_decide_eq_true (List.mem_filter.mp member).2)

theorem build_eq_ok {nodes : List DagNode} {layers : List (List DagNode)} :
    buildTopologicalLayers nodes = .ok layers ↔
      layerLoop nodes (dependents nodes) nodes.length (inDegree nodes)
        (nodes.filter fun node => ((inDegree nodes).lookup node.id).getD 0 = 0) = .ok layers ∧
      nodes.length ≤ layers.flatten.length := by
  rw [buildTopologicalLayers]
  cases layerLoop nodes (dependents nodes) nodes.length (inDegree nodes)
      (nodes.filter fun node => ((inDegree nodes).lookup node.id).getD 0 = 0) with
  | error panic => simp [bind, Except.bind]
  | ok built =>
      change (if (built.map List.length).sum < nodes.length then Except.error LayerPanic.runtimeCycle
        else Except.ok built) = _ ↔ _
      rw [← List.length_flatten]
      by_cases short : built.flatten.length < nodes.length
      · rw [if_pos short]
        constructor
        · intro impossible
          cases impossible
        · intro both
          rcases both with ⟨same, long⟩
          cases same
          omega
      · rw [if_neg short]
        constructor
        · intro same
          cases same
          exact ⟨rfl, by omega⟩
        · intro both
          exact both.1

theorem perm_of_build (built : buildTopologicalLayers nodes = .ok layers) :
    layers.flatten.Perm nodes := by
  rcases build_eq_ok.mp built with ⟨ran, long⟩
  rcases layerLoop_placement (placement_start nodes) ran with ⟨final, placement⟩
  have inside := placement.subperm
  rw [List.nil_append, List.append_nil] at inside
  exact inside.perm_of_length_le long

theorem order_of_build {layers : List (List DagNode)}
    (built : buildTopologicalLayers nodes = .ok layers) {earlier later : Nat}
    {sources targets : List DagNode} {source target : DagNode}
    (foundSource : layers[earlier]? = some sources) (sourceMember : source ∈ sources)
    (foundTarget : layers[later]? = some targets) (targetMember : target ∈ targets)
    (named : source.id ∈ target.dependsOn) : earlier < later := by
  have known : target ∈ nodes :=
    (perm_of_build built).mem_iff.mp
      (List.mem_flatten.mpr ⟨targets, List.mem_of_getElem? foundTarget, targetMember⟩)
  exact layerLoop_order (placement_start nodes) (build_eq_ok.mp built).1 foundSource sourceMember
    foundTarget targetMember known named

def Names (nodes : List DagNode) (source target : DagNode) : Prop :=
  source ∈ nodes ∧ target ∈ nodes ∧ source.id ∈ target.dependsOn

theorem exists_layer_of_build (built : buildTopologicalLayers nodes = .ok layers)
    (member : node ∈ nodes) :
    ∃ (index : Nat) (layer : List DagNode), layers[index]? = some layer ∧ node ∈ layer := by
  have placed := (perm_of_build built).mem_iff.mpr member
  rcases List.mem_flatten.mp placed with ⟨layer, inside, member⟩
  rcases List.mem_iff_getElem?.mp inside with ⟨index, found⟩
  exact ⟨index, layer, found, member⟩

theorem transitive_order_of_build {layers : List (List DagNode)}
    (built : buildTopologicalLayers nodes = .ok layers) {earlier later : Nat}
    {sources targets : List DagNode} {source target : DagNode}
    (foundSource : layers[earlier]? = some sources) (sourceMember : source ∈ sources)
    (foundTarget : layers[later]? = some targets) (targetMember : target ∈ targets)
    (chain : Relation.TransGen (Names nodes) source target) : earlier < later := by
  induction chain generalizing later targets with
  | single names =>
      exact order_of_build built foundSource sourceMember foundTarget targetMember names.2.2
  | tail _ names order =>
      rcases exists_layer_of_build built names.1 with ⟨index, layer, found, member⟩
      have before := order found member
      have after := order_of_build built found member foundTarget targetMember names.2.2
      omega

/-! ## When layering succeeds -/

/-- How often a node that has an identifier names a node of the workflow; one that
occurs twice is named twice. -/
def mentions (nodes : List DagNode) (id : String) : Nat :=
  (nodes.map fun source =>
    ((nodes.filter (·.id = id)).map fun node => node.dependsOn.count source.id).sum).sum

def lastDependencies (nodes : List DagNode) (id : String) : Nat :=
  ((nodes.filter (·.id = id)).getLast?.map (·.dependsOn.length)).getD 0

/-- Every identifier is released as often as it waits for, and one that waits stands for
one node only; no node depends on itself. -/
structure Balanced (nodes : List DagNode) : Prop where
  released : ∀ node ∈ nodes, mentions nodes node.id = lastDependencies nodes node.id
  single : ∀ node ∈ nodes, lastDependencies nodes node.id ≠ 0 →
    (nodes.map DagNode.id).count node.id = 1
  acyclic : ∀ node, ¬Relation.TransGen (Names nodes) node node

theorem counter_inDegree (nodes : List DagNode) (id : String) :
    counter (inDegree nodes) id = lastDependencies nodes id := by
  have general : ∀ degrees : Degrees,
      counter (nodes.foldl (fun degrees node => degrees.insert node.id node.dependsOn.length)
        degrees) id =
        ((nodes.filter (·.id = id)).getLast?.map (·.dependsOn.length)).getD
          (counter degrees id) := by
    induction nodes with
    | nil =>
        intro degrees
        rfl
    | cons head tail later =>
        intro degrees
        rw [List.foldl_cons, later, counter_insert]
        by_cases same : head.id = id
        · rw [List.filter_cons_of_pos (by simpa using same), List.getLast?_cons, if_pos same.symm]
          cases tail.filter (·.id = id) |>.getLast? with
          | none => rfl
          | some last => rfl
        · rw [List.filter_cons_of_neg (by simpa using same), if_neg (Ne.symm same)]
  exact general ∅

theorem count_dependentsOf (nodes : List DagNode) (key id : String) :
    (dependentsOf nodes key).count id =
      ((nodes.filter (·.id = id)).map fun node => node.dependsOn.count key).sum := by
  induction nodes with
  | nil => rfl
  | cons head tail later =>
      rw [dependentsOf, List.flatMap_cons, List.count_append, List.count_replicate]
      rw [dependentsOf] at later
      rw [later]
      by_cases same : head.id = id
      · rw [List.filter_cons_of_pos (by simpa using same), List.map_cons, List.sum_cons]
        simp [same]
      · rw [List.filter_cons_of_neg (by simpa using same)]
        simp [same]

theorem count_releasesOf (nodes layer : List DagNode) (id : String) :
    (releasesOf nodes layer).count id =
      (layer.map fun source => (dependentsOf nodes source.id).count id).sum := by
  induction layer with
  | nil => rfl
  | cons head tail later =>
      rw [releasesOf, List.flatMap_cons, List.count_append, List.map_cons, List.sum_cons]
      rw [releasesOf] at later
      rw [later]

theorem count_releasesOf_filter (nodes layer : List DagNode) (id : String) :
    (releasesOf nodes layer).count id =
      (releasesOf nodes
        (layer.filter fun source => id ∈ dependentsOf nodes source.id)).count id := by
  induction layer with
  | nil => rfl
  | cons head tail later =>
      rw [releasesOf, List.flatMap_cons, List.count_append]
      rw [releasesOf] at later
      by_cases releases : id ∈ dependentsOf nodes head.id
      · rw [List.filter_cons_of_pos (by simpa using releases), releasesOf, List.flatMap_cons,
          List.count_append, later]
        rfl
      · rw [List.filter_cons_of_neg (by simpa using releases), List.count_eq_zero.mpr releases,
          Nat.zero_add, later]

theorem count_releasesOf_nodes (nodes : List DagNode) (id : String) :
    (releasesOf nodes nodes).count id = mentions nodes id := by
  rw [count_releasesOf, mentions]
  simp only [count_dependentsOf]

theorem balanced_of_build {layers : List (List DagNode)}
    (built : buildTopologicalLayers nodes = .ok layers) : Balanced nodes := by
  have perm := perm_of_build built
  rcases layerLoop_placement (placement_start nodes) (build_eq_ok.mp built).1 with
    ⟨final, placement⟩
  rw [List.nil_append] at placement
  have shares : ∀ node ∈ nodes, share nodes final node = nodes.count node := by
    intro node member
    rw [← placement.counts node, List.append_nil, perm.count_eq]
  have zero : ∀ node ∈ nodes, counter final node.id = 0 := by
    intro node member
    have whole := shares node member
    by_contra isOpen
    rw [share, if_pos isOpen] at whole
    have present := List.count_pos_iff.mpr member
    omega
  constructor
  case released =>
    intro node member
    have counters := placement.counters node.id
    have released : (releasesOf nodes layers.flatten).count node.id =
        (releasesOf nodes nodes).count node.id :=
      (perm.flatMap_right _).count_eq node.id
    rw [zero node member, released, count_releasesOf_nodes, counter_inDegree] at counters
    omega
  case single =>
    intro node member waits
    -- Every node with the identifier is the one that the identifier stands for.
    have only : ∀ other ∈ nodes, other.id = node.id →
        findNode nodes node.id = some other ∧ nodes.count other = 1 := by
      intro other inside same
      have whole := shares other inside
      have present := List.count_pos_iff.mpr inside
      have isOpen : counter (inDegree nodes) other.id ≠ 0 := by rwa [counter_inDegree, same]
      rw [share, if_neg (by simpa using zero other inside), if_neg isOpen] at whole
      by_cases first : findNode nodes other.id = some other
      · rw [if_pos first] at whole
        rw [← same]
        exact ⟨first, whole.symm⟩
      · rw [if_neg first] at whole
        omega
    have here := only node member rfl
    have counted : (nodes.map DagNode.id).count node.id = nodes.count node := by
      rw [List.count_eq_countP, List.countP_map, List.count_eq_countP]
      apply List.countP_congr
      intro other inside
      simp only [Function.comp_apply, beq_iff_eq]
      constructor
      · intro same
        have found := (only other inside same).1
        rw [here.1] at found
        exact (Option.some.inj found).symm
      · intro same
        rw [same]
    rw [counted]
    exact here.2
  case acyclic =>
    intro node cycle
    have member : node ∈ nodes := by
      cases cycle with
      | single names => exact names.1
      | tail _ names => exact names.2.1
    rcases exists_layer_of_build built member with ⟨index, layer, found, inside⟩
    have impossible := transitive_order_of_build built found inside found inside cycle
    omega

section Complete

variable {nodes : List DagNode} (balanced : Balanced nodes)

include balanced

theorem Balanced.mentions_le (id : String) : mentions nodes id ≤ counter (inDegree nodes) id := by
  by_cases known : ∃ node ∈ nodes, node.id = id
  · rcases known with ⟨node, member, rfl⟩
    rw [counter_inDegree, balanced.released node member]
  · have none : nodes.filter (·.id = id) = [] := by
      rw [List.filter_eq_nil_iff]
      intro node member
      simpa using fun same => known ⟨node, member, same⟩
    simp [mentions, none]

variable {degrees : Degrees} {placed : List DagNode}

theorem Balanced.enough (placement : Placement nodes placed ready degrees) (id : String) :
    (releasesOf nodes ready).count id ≤ counter degrees id := by
  have counters := placement.counters id
  have bound := balanced.mentions_le id
  have inside : (releasesOf nodes (placed ++ ready)).count id ≤ mentions nodes id := by
    rcases placement.subperm with ⟨part, perm, sublist⟩
    have same : (releasesOf nodes part).count id = (releasesOf nodes (placed ++ ready)).count id :=
      (perm.flatMap_right _).count_eq id
    rw [← count_releasesOf_nodes, ← same]
    exact (sublist.flatMap _).count_le id
  rw [releasesOf, List.flatMap_append, List.count_append] at inside
  rw [releasesOf] at counters ⊢
  omega

theorem Balanced.exists_layers (placement : Placement nodes placed ready degrees)
    (fits : nodes.length ≤ placed.length + fuel) :
    ∃ layers, layerLoop nodes (dependents nodes) fuel degrees ready = .ok layers := by
  induction fuel generalizing placed ready degrees with
  | zero =>
      cases ready with
      | nil => exact ⟨[], rfl⟩
      | cons first others =>
          have long := placement.subperm.length_le
          rw [List.length_append, List.length_cons] at long
          omega
  | succ fuel later =>
      cases ready with
      | nil => exact ⟨[], rfl⟩
      | cons first others =>
          have enough : ∀ id, (releasesOf nodes (first :: others)).count id ≤
              counter ({ inDegree := degrees, nextIds := [] } : Progress).inDegree id :=
            balanced.enough placement
          rcases exists_released (placement.known_releases (first :: others)) enough with
            ⟨after, step⟩
          have released := released_of_ok (placement.known_releases (first :: others)) step
          rcases later (placement.next released) (by simp; omega) with ⟨rest, onward⟩
          refine ⟨(first :: others) :: rest, ?_⟩
          rw [layerLoop, releaseLayer_eq, step]
          change (do
            let rest ← layerLoop nodes (dependents nodes) fuel after.inDegree
              (after.nextIds.filterMap (findNode nodes))
            return (first :: others) :: rest) = _
          rw [onward]
          rfl

theorem Balanced.eq_of_id (member : node ∈ nodes) (waits : lastDependencies nodes node.id ≠ 0)
    (inside : other ∈ nodes) (same : other.id = node.id) : other = node := by
  have once := balanced.single node member waits
  rw [List.count_eq_countP, List.countP_map, List.countP_eq_length_filter,
    List.length_eq_one_iff] at once
  rcases once with ⟨only, single⟩
  have found : ∀ found ∈ nodes, found.id = node.id → found = only := by
    intro found member same
    have kept : found ∈ nodes.filter ((fun id => id == node.id) ∘ DagNode.id) :=
      List.mem_filter.mpr ⟨member, by simpa using same⟩
    rw [single] at kept
    exact List.mem_singleton.mp kept
  rw [found other inside same, found node member rfl]

theorem Balanced.share_eq (member : node ∈ nodes) (zero : counter degrees node.id = 0) :
    share nodes degrees node = nodes.count node := by
  rw [share, if_neg (by simpa using zero)]
  split
  · rfl
  next waits =>
    rw [counter_inDegree] at waits
    have first : findNode nodes node.id = some node := by
      have isSome : (findNode nodes node.id).isSome = true := by
        rw [findNode, List.find?_isSome]
        exact ⟨node, member, by simp⟩
      rcases Option.isSome_iff_exists.mp isSome with ⟨other, found⟩
      have same : other.id = node.id := by simpa using List.find?_some found
      rw [found, balanced.eq_of_id member waits (List.mem_of_find?_eq_some found) same]
    have atMost : nodes.count node ≤ (nodes.map DagNode.id).count node.id :=
      List.count_le_count_map
    have atLeast := List.count_pos_iff.mpr member
    rw [balanced.single node member waits] at atMost
    rw [if_pos first]
    omega

theorem Balanced.counter_eq_zero (placement : Placement nodes placed [] degrees)
    (member : node ∈ nodes) : counter degrees node.id = 0 := by
  by_contra isOpen
  rcases exists_minimal_of_acyclic balanced.acyclic
    (fun node => node ∈ nodes ∧ counter degrees node.id ≠ 0) (fun _ parts => parts.1)
    ⟨member, isOpen⟩ with ⟨least, ⟨inside, waiting⟩, minimal⟩
  have counters := placement.counters least.id
  have waits : lastDependencies nodes least.id ≠ 0 := by
    rw [counter_inDegree] at counters
    omega
  -- All nodes that release the identifier have been placed.
  have complete : ∀ source ∈ nodes, least.id ∈ dependentsOf nodes source.id →
      placed.count source = nodes.count source := by
    intro source sourceMember releases
    rcases mem_dependentsOf.mp releases with ⟨other, otherMember, named, same⟩
    rw [balanced.eq_of_id inside waits otherMember same] at named
    have placedAlready : counter degrees source.id = 0 := by
      by_contra sourceOpen
      exact minimal source ⟨sourceMember, sourceOpen⟩ ⟨sourceMember, inside, named⟩
    rw [← balanced.share_eq sourceMember placedAlready, ← placement.counts source,
      List.append_nil]
  have released : (releasesOf nodes placed).count least.id = mentions nodes least.id := by
    have inside := placement.subperm
    rw [List.append_nil] at inside
    have same : (placed.filter fun source => least.id ∈ dependentsOf nodes source.id).Perm
        (nodes.filter fun source => least.id ∈ dependentsOf nodes source.id) := by
      rw [List.perm_iff_count]
      intro source
      by_cases releases : least.id ∈ dependentsOf nodes source.id
      · rw [List.count_filter (by simpa using releases), List.count_filter (by simpa using releases)]
        by_cases known : source ∈ nodes
        · exact complete source known releases
        · have bound := inside.count_le source
          have absent := List.count_eq_zero.mpr known
          omega
      · rw [List.count_eq_zero.mpr (by simp [releases]), List.count_eq_zero.mpr (by simp [releases])]
    rw [← count_releasesOf_nodes, count_releasesOf_filter, count_releasesOf_filter nodes nodes]
    exact (same.flatMap_right _).count_eq least.id
  rw [released, counter_inDegree, balanced.released least inside] at counters
  omega

end Complete

theorem build_ok_iff_balanced (nodes : List DagNode) :
    (∃ layers, buildTopologicalLayers nodes = .ok layers) ↔ Balanced nodes := by
  constructor
  · rintro ⟨layers, built⟩
    exact balanced_of_build built
  · intro balanced
    have fits : nodes.length ≤ ([] : List DagNode).length + nodes.length := by simp
    rcases balanced.exists_layers (placement_start nodes) fits with ⟨layers, ran⟩
    rcases layerLoop_placement (placement_start nodes) ran with ⟨final, placement⟩
    rw [List.nil_append] at placement
    have perm : layers.flatten.Perm nodes := by
      rw [List.perm_iff_count]
      intro node
      have counts := placement.counts node
      rw [List.append_nil] at counts
      by_cases member : node ∈ nodes
      · rw [counts, balanced.share_eq member (balanced.counter_eq_zero placement member)]
      · have bound := share_le nodes final node
        have absent := List.count_eq_zero.mpr member
        omega
    exact ⟨layers, build_eq_ok.mpr ⟨ran, perm.length_eq.ge⟩⟩

end TopologicalLayers

end HarnessAgent
