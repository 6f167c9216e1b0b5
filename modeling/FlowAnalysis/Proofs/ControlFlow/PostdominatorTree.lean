import FlowAnalysis.Proofs.ControlFlow.Dependence

/-!
# The tree of postdominators

Where control can end, no two blocks postdominate each other, so at most one postdominator of a
block is postdominated by all the others. `Graph.ImmediatelyPostdominates` says that a block is this
one, the parent of the block in the tree of postdominators. The sweeps record distances only to rank
postdominators, but the nearest one is always the parent, and the distances are the lengths of
shortest paths.
-/

namespace FlowAnalysis

namespace Graph

variable {graph : Graph} {id next other nearest nearest' : BlockId}

/-- Of two different blocks one is left behind for good by some control that ends. -/
theorem Postdominates.antisymm (canEnd : graph.CanEnd id)
    (postdominates : graph.Postdominates other id) (postdominates' : graph.Postdominates id other) :
    other = id := by
  by_contra differs
  rcases canEnd with ⟨blocks, exit, path, isLast⟩
  -- A path that ends comes back to its first block behind the other one: the rest is shorter.
  induction lengthEq : blocks.length using Nat.strongRecOn generalizing blocks with
  | ind length ih =>
      rcases path.split_first (postdominates blocks exit path isLast) with
        ⟨before, after, rfl, -, toOther, fromOther⟩
      rcases fromOther.split_first (postdominates' _ exit fromOther isLast) with
        ⟨between, rest, afterEq, -, -, fromId⟩
      have someBefore : before ≠ [] := by
        rintro rfl
        rcases toOther.eq_cons_source with ⟨_, listEq⟩
        exact differs (List.cons.inj listEq).1
      have positive := List.length_pos_iff.2 someBefore
      have sameLength := congrArg List.length afterEq
      rw [List.length_append] at sameLength
      refine ih (id :: rest).length ?_ (id :: rest) fromId rfl
      rw [← lengthEq, List.length_append]
      omega

/-- A block is the parent of another one in the tree of postdominators: it postdominates that one,
and it is postdominated by all other blocks that do. -/
structure ImmediatelyPostdominates (graph : Graph) (nearest id : BlockId) : Prop where
  ne : nearest ≠ id
  postdominates : graph.Postdominates nearest id
  postdominates_of_ne : ∀ other, other ≠ id → graph.Postdominates other id →
    graph.Postdominates other nearest

theorem ImmediatelyPostdominates.unique (canEnd : graph.CanEnd nearest)
    (isParent : graph.ImmediatelyPostdominates nearest id)
    (isParent' : graph.ImmediatelyPostdominates nearest' id) : nearest' = nearest :=
  Postdominates.antisymm canEnd
    (isParent.postdominates_of_ne nearest' isParent'.ne isParent'.postdominates)
    (isParent'.postdominates_of_ne nearest isParent.ne isParent.postdominates)

/-- The only successor of a block is its parent. -/
theorem immediatelyPostdominates_of_successors_eq (onlyNext : graph.successors id = [next])
    (differs : next ≠ id) : graph.ImmediatelyPostdominates next id where
  ne := differs
  postdominates := by
    intro blocks exit path isLast
    cases path with
    | single => simp [onlyNext] at isLast
    | step edge rest =>
        rw [onlyNext] at edge
        exact List.mem_cons_of_mem _ (List.mem_singleton.1 edge ▸ rest.source_mem)
  postdominates_of_ne := by
    intro other otherDiffers postdominates blocks exit path isLast
    have edge : next ∈ graph.successors id := onlyNext ▸ List.mem_singleton_self next
    have met := postdominates _ exit (.step edge path) isLast
    exact (List.mem_cons.1 met).resolve_left otherDiffers

/-- The only block at which control ends postdominates all others. -/
theorem postdominates_of_exits_eq (wellFormed : graph.WellFormed) {exit : BlockId}
    (onlyExit : graph.exits = [exit]) (reached : id ∈ graph.reachable) :
    graph.Postdominates exit id := by
  intro blocks last path isLast
  have lastReached := wellFormed.mem_reachable_of_mem path reached path.target_mem
  have isExit : last ∈ graph.exits := mem_exits.2 ⟨lastReached, isLast⟩
  rw [onlyExit, List.mem_singleton] at isExit
  exact isExit ▸ path.target_mem

end Graph

namespace Postdominators

variable {graph : Graph} {postdominators : Postdominators} {id other : BlockId}

theorem Exact.mem_keys_iff (exact : Exact graph postdominators) (reached : id ∈ graph.reachable) :
    other ∈ keys (postdominators.of id) ↔ graph.Postdominates other id := by
  constructor
  · intro isKey
    rcases List.mem_map.1 isKey with ⟨⟨_, distance⟩, entryMem, rfl⟩
    exact exact.postdominates_of_mem reached entryMem
  · intro postdominates
    rcases exact.mem_of_postdominates reached postdominates with ⟨distance, entryMem⟩
    exact List.mem_map.2 ⟨_, entryMem, rfl⟩

/-- The nearest postdominator of a block is its parent in the tree of postdominators. -/
theorem Exact.immediate?_eq_some_iff (exact : Exact graph postdominators)
    (wellFormed : graph.WellFormed) (canEnd : ∀ id ∈ graph.reachable, graph.CanEnd id)
    (reached : id ∈ graph.reachable) {nearest : BlockId} :
    postdominators.immediate? id = some nearest ↔ graph.ImmediatelyPostdominates nearest id := by
  constructor
  · intro found
    rcases exact.of_immediate?_eq_some reached found with ⟨differs, postdominates, closest⟩
    exact ⟨differs, postdominates, closest⟩
  · intro isParent
    cases found : postdominators.immediate? id with
    | none =>
        have alone := (exact.immediate?_eq_none reached).1 found
        exact absurd (alone nearest isParent.postdominates) isParent.ne
    | some chosen =>
        rcases exact.of_immediate?_eq_some reached found with ⟨differs, postdominates, closest⟩
        rcases canEnd id reached with ⟨blocks, exit, path, isLast⟩
        have nearestReached := wellFormed.mem_reachable_of_mem path reached
          (isParent.postdominates blocks exit path isLast)
        rw [isParent.unique (canEnd nearest nearestReached) ⟨differs, postdominates, closest⟩]

/-- For every graph of a module or function each reachable block is listed with its postdominators,
each of them once and at the length of a shortest path. A block has no nearest one if it has no
postdominator but itself; otherwise the nearest one is its parent in the tree of postdominators. -/
theorem exists_ofGraph_immediate?_iff {root : Node} (built : Graph.ofRoot root = .ok graph) :
    ∃ postdominators, ofGraph graph = .ok postdominators ∧ ∀ id ∈ graph.reachable,
      (keys (postdominators.of id)).Nodup ∧
      (∀ other, other ∈ keys (postdominators.of id) ↔ graph.Postdominates other id) ∧
      (∀ other distance, (other, distance) ∈ postdominators.of id →
        ∃ edges, distance = some edges ∧ graph.Distance id other edges) ∧
      (postdominators.immediate? id = none ↔
        ∀ other, graph.Postdominates other id → other = id) ∧
      ∀ nearest, postdominators.immediate? id = some nearest ↔
        graph.ImmediatelyPostdominates nearest id := by
  have wellFormed := (Graph.ofRoot_laidOut built).wellFormed
  have canEnd : ∀ id ∈ graph.reachable, graph.CanEnd id := fun id reached =>
    Graph.canEnd_of_lt_size built (wellFormed.lt_size_of_mem_reachable reached)
  rcases exists_exact wellFormed canEnd with ⟨postdominators, found, exact⟩
  refine ⟨postdominators, found, fun id reached => ?_⟩
  exact ⟨exact.nodup_keys id reached, fun _ => exact.mem_keys_iff reached,
    exact.distance id reached, exact.immediate?_eq_none reached,
    fun _ => exact.immediate?_eq_some_iff wellFormed canEnd reached⟩

/-- Behind the conditional in the body of a loop control returns to the head of the loop, which is
the parent there; the block after the loop postdominates it too, one edge further away. -/
theorem immediate?_conditionalBreak : ∃ graph postdominators,
    Graph.ofRoot Graph.conditionalBreak = .ok graph ∧ ofGraph graph = .ok postdominators ∧
      postdominators.immediate? 8 = some 2 ∧ (3, some 2) ∈ postdominators.of 8 ∧
      postdominators.immediate? 3 = none := by
  have built : Graph.ofRoot Graph.conditionalBreak = .ok _ := rfl
  have wellFormed := (Graph.ofRoot_laidOut built).wellFormed
  rcases exists_ofGraph_immediate?_iff built with ⟨postdominators, found, tree⟩
  rcases tree 8 (by decide +kernel) with ⟨-, listed, distances, -, parent⟩
  rcases tree 3 (by decide +kernel) with ⟨-, -, -, alone, -⟩
  refine ⟨_, postdominators, rfl, found, ?_, ?_, ?_⟩
  · exact (parent 2).2 (Graph.immediatelyPostdominates_of_successors_eq (by decide +kernel)
      (by decide))
  · have isListed := (listed 3).2
      (Graph.postdominates_of_exits_eq wellFormed (by decide +kernel) (by decide +kernel))
    rcases List.mem_map.1 isListed with ⟨⟨_, distance⟩, entryMem, rfl⟩
    rcases distances _ distance entryMem with ⟨edges, rfl, isDistance⟩
    have twoEdges : edges = 2 := by
      refine isDistance.eq ⟨⟨[8, 2, 3], ?_, rfl⟩, ?_⟩
      · exact .step (by decide +kernel) (.step (by decide +kernel) (.single 3))
      · intro blocks path
        cases path with
        | @step _ next _ _ edge rest =>
            have atHead : next = 2 :=
              (by decide +kernel : ∀ id ∈ Graph.successors _ 8, id = 2) next edge
            subst atHead
            cases rest with
            | step _ rest =>
                rcases rest.eq_cons_source with ⟨after, rfl⟩
                simp
    rwa [twoEdges] at entryMem
  · apply alone.2
    intro other postdominates
    exact List.mem_singleton.1 (postdominates [3] 3 (.single 3) (by decide +kernel))

end Postdominators

end FlowAnalysis
