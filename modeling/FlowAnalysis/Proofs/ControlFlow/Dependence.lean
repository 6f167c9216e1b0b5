import FlowAnalysis.ControlFlow.Dependence
import FlowAnalysis.Proofs.ControlFlow.Distance
import FlowAnalysis.Proofs.ControlFlow.Drawing

/-!
# Control dependence has its classical meaning

A block depends directly on a branch if it postdominates some successor of the branch but not the
branch itself. The walk from a branch does not go into postdominators of the branch, and it stops
behind a block with the nearest postdominator of the branch. Neither stop cuts off a direct
dependence: on the way from a successor of the branch to a block that postdominates it, no block
postdominates the branch, and none before the last has the nearest postdominator of the branch, as
that one would be postdominated too. Conversely everything on the walk depends on the branch along a
chain of direct dependences: the end of the walk depends directly on the last block on the way that
it does not postdominate.
-/

namespace FlowAnalysis

namespace Graph

/-- Whether the second block runs is decided at the first one: some way on from it leads to the
second block for certain, but not all do. -/
structure DirectlyDepends (graph : Graph) (branch dependent : BlockId) : Prop where
  branch_reached : branch ∈ graph.reachable
  dependent_reached : dependent ∈ graph.reachable
  ne : branch ≠ dependent
  exists_successor : ∃ successor ∈ graph.successors branch, graph.Postdominates dependent successor
  not_postdominates : ¬graph.Postdominates dependent branch

variable {graph : Graph} {postdominators : Postdominators} {branch item : BlockId}

/-! ### The walk -/

/-- What a walk has put on its stack so far: existing blocks, none of them twice. -/
structure Scheduled (graph : Graph) (scheduled stack : List BlockId) : Prop where
  nodup : scheduled.Nodup
  lt_size : ∀ id ∈ scheduled, id < graph.size
  stack_nodup : stack.Nodup
  stack_subset : stack ⊆ scheduled

namespace Scheduled

variable {scheduled stack : List BlockId}

theorem pop (invariant : graph.Scheduled scheduled (item :: stack)) :
    graph.Scheduled scheduled stack where
  nodup := invariant.nodup
  lt_size := invariant.lt_size
  stack_nodup := (List.nodup_cons.1 invariant.stack_nodup).2
  stack_subset := List.subset_of_cons_subset invariant.stack_subset

theorem push (invariant : graph.Scheduled scheduled (item :: stack)) {next : List BlockId}
    (distinct : next.Nodup) (small : ∀ id ∈ next, id < graph.size)
    (fresh : ∀ id ∈ next, id ∉ scheduled) :
    graph.Scheduled (scheduled ++ next) (next.reverse ++ stack) where
  nodup := List.nodup_append.2 ⟨invariant.nodup, distinct, by
    rintro old oldMem new newMem rfl
    exact fresh old newMem oldMem⟩
  lt_size := by
    intro id idMem
    rcases List.mem_append.1 idMem with old | new
    · exact invariant.lt_size id old
    · exact small id new
  stack_nodup := List.nodup_append.2 ⟨List.nodup_reverse.2 distinct, invariant.pop.stack_nodup, by
    rintro new newMem old oldMem rfl
    exact fresh new (List.mem_reverse.1 newMem) (invariant.pop.stack_subset oldMem)⟩
  stack_subset := by
    intro id idMem
    rcases List.mem_append.1 idMem with new | old
    · exact List.mem_append_right _ (List.mem_reverse.1 new)
    · exact List.mem_append_left _ (invariant.pop.stack_subset old)

theorem length_le (invariant : graph.Scheduled scheduled stack) :
    scheduled.length ≤ graph.size := by
  have inside : scheduled ⊆ List.range graph.size :=
    fun id idMem => List.mem_range.2 (invariant.lt_size id idMem)
  simpa using (invariant.nodup.subperm inside).length_le

end Scheduled

/-- The blocks put on the stack when a block is visited. -/
def nextOnWalk (graph : Graph) (postdominators : Postdominators) (branch : BlockId)
    (scheduled : List BlockId) (item : BlockId) : List BlockId :=
  if postdominators.immediate? item == postdominators.immediate? branch then []
  else (graph.successors item).filter fun id => id ∉ scheduled

theorem walkDependents_cons (bound : Nat) (scheduled : List BlockId) (item : BlockId)
    (stack : List BlockId) :
    graph.walkDependents postdominators branch (bound + 1) scheduled (item :: stack) =
      if postdominators.postdominates item branch then
        graph.walkDependents postdominators branch bound scheduled stack
      else
        item :: graph.walkDependents postdominators branch bound
          (scheduled ++ graph.nextOnWalk postdominators branch scheduled item)
          ((graph.nextOnWalk postdominators branch scheduled item).reverse ++ stack) :=
  rfl

theorem of_mem_nextOnWalk {scheduled : List BlockId} {id : BlockId}
    (next : id ∈ graph.nextOnWalk postdominators branch scheduled item) :
    id ∈ graph.successors item ∧ id ∉ scheduled := by
  rw [nextOnWalk] at next
  split at next
  · exact absurd next List.not_mem_nil
  · simpa using next

theorem Scheduled.visit {scheduled stack : List BlockId} (wellFormed : graph.WellFormed)
    (distinct : graph.edges.Nodup) (invariant : graph.Scheduled scheduled (item :: stack)) :
    graph.Scheduled (scheduled ++ graph.nextOnWalk postdominators branch scheduled item)
      ((graph.nextOnWalk postdominators branch scheduled item).reverse ++ stack) := by
  refine invariant.push ?_ ?_ fun id next => (of_mem_nextOnWalk next).2
  · rw [nextOnWalk]
    split
    · exact List.nodup_nil
    · exact (nodup_successors distinct item).filter _
  · exact fun id next => wellFormed.target_lt _ (mem_successors.1 (of_mem_nextOnWalk next).1)

/-- The walk visits blocks on paths from its stack that do not meet postdominators of the branch. -/
theorem exists_path_of_mem_walkDependents {bound : Nat} {scheduled stack : List BlockId}
    (member : item ∈ graph.walkDependents postdominators branch bound scheduled stack) :
    ∃ start ∈ stack, ∃ blocks, graph.Path start blocks item ∧
      ∀ id ∈ blocks, postdominators.postdominates id branch = false := by
  induction bound generalizing scheduled stack with
  | zero => simp [walkDependents] at member
  | succ bound ih =>
      cases stack with
      | nil => simp [walkDependents] at member
      | cons first stack =>
          rw [walkDependents_cons] at member
          split at member
          · rcases ih member with ⟨start, startMem, path⟩
            exact ⟨start, List.mem_cons_of_mem _ startMem, path⟩
          · next notPostdominator =>
              have firstFree : postdominators.postdominates first branch = false :=
                Bool.eq_false_iff.2 notPostdominator
              rcases List.mem_cons.1 member with rfl | later
              · refine ⟨item, List.mem_cons_self, [item], .single item, ?_⟩
                intro id isItem
                rcases List.mem_singleton.1 isItem with rfl
                exact firstFree
              · rcases ih later with ⟨start, startMem, blocks, path, free⟩
                rcases List.mem_append.1 startMem with isNext | onStack
                · have edge := (of_mem_nextOnWalk (List.mem_reverse.1 isNext)).1
                  refine ⟨first, List.mem_cons_self, first :: blocks, .step edge path, ?_⟩
                  exact List.forall_mem_cons.2 ⟨firstFree, free⟩
                · exact ⟨start, List.mem_cons_of_mem _ onStack, blocks, path, free⟩

/-- The walk visits no block twice, and apart from its stack only blocks not scheduled yet. -/
theorem nodup_walkDependents (wellFormed : graph.WellFormed) (distinct : graph.edges.Nodup)
    {bound : Nat} {scheduled stack : List BlockId} (invariant : graph.Scheduled scheduled stack) :
    (graph.walkDependents postdominators branch bound scheduled stack).Nodup ∧
      ∀ id ∈ graph.walkDependents postdominators branch bound scheduled stack,
        id ∈ stack ∨ id ∉ scheduled := by
  induction bound generalizing scheduled stack with
  | zero => simp [walkDependents]
  | succ bound ih =>
      cases stack with
      | nil => simp [walkDependents]
      | cons first stack =>
          rw [walkDependents_cons]
          split
          · rcases ih invariant.pop with ⟨restDistinct, restFresh⟩
            refine ⟨restDistinct, fun id visited => ?_⟩
            exact (restFresh id visited).imp_left (List.mem_cons_of_mem _)
          · rcases ih (invariant.visit wellFormed distinct) with ⟨restDistinct, restFresh⟩
            have firstScheduled := invariant.stack_subset List.mem_cons_self
            refine ⟨List.nodup_cons.2 ⟨?_, restDistinct⟩, ?_⟩
            · intro again
              rcases restFresh first again with onStack | fresh
              · rcases List.mem_append.1 onStack with isNext | onStack
                · exact (of_mem_nextOnWalk (List.mem_reverse.1 isNext)).2 firstScheduled
                · exact (List.nodup_cons.1 invariant.stack_nodup).1 onStack
              · exact fresh (List.mem_append_left _ firstScheduled)
            · intro id visited
              rcases List.mem_cons.1 visited with rfl | later
              · exact .inl List.mem_cons_self
              · rcases restFresh id later with onStack | fresh
                · rcases List.mem_append.1 onStack with isNext | onStack
                  · exact .inr (of_mem_nextOnWalk (List.mem_reverse.1 isNext)).2
                  · exact .inl (List.mem_cons_of_mem _ onStack)
                · exact .inr fun old => fresh (List.mem_append_left _ old)

/-- The walk visits what is on its stack, and goes on from what it has visited, but for the two
stops. Its bound leaves room for all blocks that have not been scheduled. -/
theorem closed_walkDependents (wellFormed : graph.WellFormed) (distinct : graph.edges.Nodup)
    {bound : Nat} {scheduled stack : List BlockId} (invariant : graph.Scheduled scheduled stack)
    (enough : graph.size + stack.length ≤ bound + scheduled.length) :
    (∀ id ∈ stack, postdominators.postdominates id branch = false →
        id ∈ graph.walkDependents postdominators branch bound scheduled stack) ∧
      ∀ id ∈ graph.walkDependents postdominators branch bound scheduled stack,
        postdominators.immediate? id ≠ postdominators.immediate? branch →
          ∀ successor ∈ graph.successors id,
            postdominators.postdominates successor branch = false → successor ∈ scheduled ∨
              successor ∈ graph.walkDependents postdominators branch bound scheduled stack := by
  induction bound generalizing scheduled stack with
  | zero =>
      have few := invariant.length_le
      have empty : stack = [] := List.length_eq_zero_iff.1 (by omega)
      simp [empty, walkDependents]
  | succ bound ih =>
      cases stack with
      | nil => simp [walkDependents]
      | cons first stack =>
          rw [List.length_cons] at enough
          rw [walkDependents_cons]
          split
          · next isPostdominator =>
              rcases ih invariant.pop (by omega) with ⟨stackVisited, closed⟩
              refine ⟨?_, closed⟩
              intro id onStack free
              rcases List.mem_cons.1 onStack with rfl | later
              · rw [isPostdominator] at free
                cases free
              · exact stackVisited id later free
          · next notPostdominator =>
              have room : graph.size +
                  ((graph.nextOnWalk postdominators branch scheduled first).reverse ++
                    stack).length ≤ bound +
                  (scheduled ++ graph.nextOnWalk postdominators branch scheduled first).length := by
                simp only [List.length_append, List.length_reverse]
                omega
              rcases ih (invariant.visit wellFormed distinct) room with ⟨stackVisited, closed⟩
              have nextVisited : ∀ id ∈ graph.nextOnWalk postdominators branch scheduled first,
                  postdominators.postdominates id branch = false → id ∈ _ :=
                fun id next => stackVisited id (List.mem_append_left _ (List.mem_reverse.2 next))
              refine ⟨?_, ?_⟩
              · intro id onStack free
                rcases List.mem_cons.1 onStack with rfl | later
                · exact List.mem_cons_self
                · exact List.mem_cons_of_mem _
                    (stackVisited id (List.mem_append_right _ later) free)
              · intro id visited goesOn successor edge free
                rcases List.mem_cons.1 visited with rfl | later
                · by_cases old : successor ∈ scheduled
                  · exact .inl old
                  · have isNext :
                        successor ∈ graph.nextOnWalk postdominators branch scheduled id := by
                      rw [nextOnWalk, if_neg (by simpa using goesOn)]
                      exact List.mem_filter.2 ⟨edge, by simpa using old⟩
                    exact .inr (List.mem_cons_of_mem _ (nextVisited successor isNext free))
                · rcases closed id later goesOn successor edge free with old | visitedLater
                  · rcases List.mem_append.1 old with old | isNext
                    · exact .inl old
                    · exact .inr (List.mem_cons_of_mem _ (nextVisited successor isNext free))
                  · exact .inr (List.mem_cons_of_mem _ visitedLater)

/-! ### The dependents of a branch -/

theorem scheduled_successors (wellFormed : graph.WellFormed) (distinct : graph.edges.Nodup)
    (branch : BlockId) :
    graph.Scheduled (graph.successors branch) (graph.successors branch).reverse where
  nodup := nodup_successors distinct branch
  lt_size := fun _ edge => wellFormed.target_lt _ (mem_successors.1 edge)
  stack_nodup := List.nodup_reverse.2 (nodup_successors distinct branch)
  stack_subset := fun _ idMem => List.mem_reverse.1 idMem

theorem nodup_dependents (wellFormed : graph.WellFormed) (distinct : graph.edges.Nodup)
    (postdominators : Postdominators) (branch : BlockId) :
    (graph.dependents postdominators branch).Nodup := by
  simp only [dependents]
  split
  · exact List.nodup_nil
  · exact (nodup_walkDependents wellFormed distinct
      (scheduled_successors wellFormed distinct branch)).1

theorem exists_path_of_mem_dependents (member : item ∈ graph.dependents postdominators branch) :
    ∃ start ∈ graph.successors branch, ∃ blocks, graph.Path start blocks item ∧
      ∀ id ∈ blocks, postdominators.postdominates id branch = false := by
  simp only [dependents] at member
  split at member
  · exact absurd member List.not_mem_nil
  · rcases exists_path_of_mem_walkDependents member with ⟨start, startMem, path⟩
    exact ⟨start, List.mem_reverse.1 startMem, path⟩

/-- Every block on a path from a branch is found as long as neither stop of the walk is on the
path. -/
theorem mem_dependents_of_path (wellFormed : graph.WellFormed) (distinct : graph.edges.Nodup)
    (branching : 1 < (graph.successors branch).length) {start : BlockId} {blocks : List BlockId}
    (isStart : start ∈ graph.successors branch) (path : graph.Path start blocks item)
    (free : ∀ id ∈ blocks, postdominators.postdominates id branch = false)
    (goesOn : ∀ id ∈ blocks, id ≠ item →
      postdominators.immediate? id ≠ postdominators.immediate? branch) :
    item ∈ graph.dependents postdominators branch := by
  have invariant := scheduled_successors wellFormed distinct branch
  have walk : graph.dependents postdominators branch = graph.walkDependents postdominators branch
      graph.size (graph.successors branch) (graph.successors branch).reverse := by
    simp only [dependents]
    rw [if_neg (by omega)]
  have enough : graph.size + (graph.successors branch).reverse.length ≤
      graph.size + (graph.successors branch).length := by simp
  rcases closed_walkDependents wellFormed distinct invariant enough with ⟨stackVisited, closed⟩
  rw [← walk] at stackVisited closed
  have startsVisited : ∀ id ∈ graph.successors branch,
      postdominators.postdominates id branch = false →
        id ∈ graph.dependents postdominators branch :=
    fun id edge => stackVisited id (List.mem_reverse.2 edge)
  have along : start ∈ graph.dependents postdominators branch →
      item ∈ graph.dependents postdominators branch := by
    clear isStart
    induction path with
    | single => exact id
    | @step source next target blocks edge rest ih =>
        intro visited
        by_cases isItem : source = target
        · exact isItem ▸ visited
        · have nextFree := free next (List.mem_cons_of_mem _ rest.source_mem)
          have sourceGoesOn := goesOn source List.mem_cons_self isItem
          refine ih (fun id idMem => free id (List.mem_cons_of_mem _ idMem))
            (fun id idMem => goesOn id (List.mem_cons_of_mem _ idMem)) ?_
          rcases closed source visited sourceGoesOn next edge nextFree with isStart | visitedLater
          · exact startsVisited next isStart nextFree
          · exact visitedLater
  exact along (startsVisited start isStart (free start path.source_mem))

/-! ### Direct dependence -/

/-- A branch with a single successor has nothing that depends on it. -/
theorem DirectlyDepends.one_lt_length (depends : graph.DirectlyDepends branch item) :
    1 < (graph.successors branch).length := by
  rcases depends.exists_successor with ⟨successor, edge, postdominates⟩
  by_contra single
  apply depends.not_postdominates
  intro blocks exit path isLast
  cases path with
  | single =>
      rw [isLast] at edge
      exact absurd edge List.not_mem_nil
  | @step _ next _ blocks nextEdge rest =>
      have atMostOne : ∀ ids : List BlockId, successor ∈ ids → next ∈ ids → ¬1 < ids.length →
          next = successor := by
        intro ids successorMem nextMem few
        rcases ids with _ | ⟨first, _ | ⟨second, rest⟩⟩
        · exact absurd nextMem List.not_mem_nil
        · exact (List.mem_singleton.1 nextMem).trans (List.mem_singleton.1 successorMem).symm
        · simp at few
      have same := atMostOne _ edge nextEdge single
      subst same
      exact List.mem_cons_of_mem _ (postdominates blocks exit rest isLast)

section Classical

variable (wellFormed : graph.WellFormed) (canEnd : ∀ id ∈ graph.reachable, graph.CanEnd id)
  (exact : Postdominators.Exact graph postdominators)

include wellFormed exact

/-- Neither stop of the walk comes before a direct dependent. -/
theorem DirectlyDepends.goesOn (depends : graph.DirectlyDepends branch item) {start id : BlockId}
    {before : List BlockId} (isStart : start ∈ graph.successors branch)
    (postdominates : graph.Postdominates item start)
    (path : graph.Path start (before ++ [id]) id) (notBefore : item ∉ before) :
    postdominators.postdominates id branch = false ∧
      (id ≠ item → postdominators.immediate? id ≠ postdominators.immediate? branch) := by
  have branchReached := depends.branch_reached
  have startReached := wellFormed.mem_reachable_of_successor branchReached isStart
  have reached := wellFormed.mem_reachable_of_mem path startReached path.target_mem
  have itemPostdominates : graph.Postdominates item id := postdominates.of_path path notBefore
  refine ⟨?_, ?_⟩
  · rw [Bool.eq_false_iff, ne_eq, exact.postdominates_iff branch branchReached]
    exact fun claimed => depends.not_postdominates (itemPostdominates.trans claimed)
  · intro differs same
    cases found : postdominators.immediate? id with
    | none => exact differs ((exact.immediate?_eq_none reached).1 found item itemPostdominates).symm
    | some nearest =>
        have nearestPostdominated :=
          (exact.of_immediate?_eq_some reached found).2.2 item differs.symm itemPostdominates
        have nearestPostdominates :=
          (exact.of_immediate?_eq_some branchReached (same ▸ found)).2.1
        exact depends.not_postdominates (nearestPostdominated.trans nearestPostdominates)

include canEnd in
/-- A block that depends directly on a branch is found from it. -/
theorem DirectlyDepends.mem_dependents (distinct : graph.edges.Nodup)
    (depends : graph.DirectlyDepends branch item) :
    item ∈ graph.dependents postdominators branch := by
  rcases depends.exists_successor with ⟨start, isStart, postdominates⟩
  have startReached := wellFormed.mem_reachable_of_successor depends.branch_reached isStart
  rcases canEnd start startReached with ⟨blocks, exit, toExit, isLast⟩
  rcases toExit.split_first (postdominates blocks exit toExit isLast) with
    ⟨before, after, rfl, notBefore, path, -⟩
  have each : ∀ id ∈ before ++ [item], postdominators.postdominates id branch = false ∧
      (id ≠ item → postdominators.immediate? id ≠ postdominators.immediate? branch) := by
    intro id idMem
    rcases path.split_first idMem with ⟨earlier, later, blocksEq, -, toId, -⟩
    refine depends.goesOn wellFormed exact isStart postdominates toId ?_
    intro isEarlier
    apply notBefore
    -- What comes before some block of the path comes before its end.
    rcases List.eq_nil_or_concat' later with rfl | ⟨later, last, rfl⟩
    · have parts := List.append_inj_left' blocksEq rfl
      exact parts ▸ isEarlier
    · rw [← List.cons_append, ← List.append_assoc] at blocksEq
      have parts := List.append_inj_left' blocksEq rfl
      exact parts ▸ List.mem_append_left _ isEarlier
  exact mem_dependents_of_path wellFormed distinct depends.one_lt_length isStart path
    (fun id idMem => (each id idMem).1) (fun id idMem => (each id idMem).2)

omit exact in
/-- On the way from a block to one that does not postdominate it, some step comes to be
postdominated. -/
theorem Path.exists_directlyDepends {source : BlockId} {blocks : List BlockId}
    (path : graph.Path source blocks item) (reached : source ∈ graph.reachable)
    (excluded : ¬graph.Postdominates item source) :
    ∃ before last after, blocks = before ++ last :: after ∧ after ≠ [] ∧
      graph.Path source (before ++ [last]) last ∧ graph.DirectlyDepends last item := by
  induction path with
  | single => exact absurd (.refl _) excluded
  | @step source next item blocks edge rest ih =>
      have nextReached := wellFormed.mem_reachable_of_successor reached edge
      by_cases postdominates : graph.Postdominates item next
      · refine ⟨[], source, blocks, rfl, List.ne_nil_of_mem rest.source_mem, .single source, ?_⟩
        have itemReached := wellFormed.mem_reachable_of_mem rest nextReached rest.target_mem
        refine ⟨reached, itemReached, ?_, ⟨next, edge, postdominates⟩, excluded⟩
        rintro rfl
        exact excluded (.refl _)
      · rcases ih nextReached postdominates with ⟨before, last, after, rfl, later, path, depends⟩
        exact ⟨source :: before, last, after, rfl, later, .step edge path, depends⟩

omit exact in
/-- What lies behind a branch without postdominators of the branch on the way depends on it along a
chain. -/
theorem transGen_directlyDepends {start : BlockId} {blocks : List BlockId}
    (reached : branch ∈ graph.reachable) (isStart : start ∈ graph.successors branch)
    (path : graph.Path start blocks item) (free : ∀ id ∈ blocks, ¬graph.Postdominates id branch) :
    Relation.TransGen graph.DirectlyDepends branch item := by
  induction lengthEq : blocks.length using Nat.strongRecOn generalizing blocks item with
  | _ length ih =>
      have excluded := free item path.target_mem
      rcases Path.exists_directlyDepends wellFormed (.step isStart path) reached excluded with
        ⟨before, last, after, blocksEq, later, -, depends⟩
      cases before with
      | nil =>
          rcases List.cons.inj blocksEq with ⟨rfl, -⟩
          exact .single depends
      | cons first before =>
          rcases List.cons.inj blocksEq with ⟨-, rfl⟩
          have shorter : (before ++ [last]).length < length := by
            have positive := List.length_pos_iff.2 later
            rw [← lengthEq]
            simpa using positive
          refine .tail (ih _ shorter path.split.1 ?_ rfl) depends
          intro id idMem
          refine free id ?_
          rcases List.mem_append.1 idMem with early | isLast
          · exact List.mem_append_left _ early
          · exact List.mem_append_right _ (List.mem_singleton.1 isLast ▸ List.mem_cons_self)

/-- What is found from a branch depends on it along a chain. -/
theorem transGen_of_mem_dependents (reached : branch ∈ graph.reachable)
    (member : item ∈ graph.dependents postdominators branch) :
    branch ≠ item ∧ Relation.TransGen graph.DirectlyDepends branch item := by
  rcases exists_path_of_mem_dependents member with ⟨start, isStart, blocks, path, free⟩
  have excluded : ∀ id ∈ blocks, ¬graph.Postdominates id branch := by
    intro id idMem
    rw [← exact.postdominates_iff branch reached, free id idMem]
    exact Bool.false_ne_true
  refine ⟨?_, transGen_directlyDepends wellFormed reached isStart path excluded⟩
  rintro rfl
  exact excluded _ path.target_mem (.refl _)

end Classical

/-- The dependences of a graph in which control can end: those of each reachable branch in turn. -/
theorem exists_controlDependencies (wellFormed : graph.WellFormed)
    (canEnd : ∀ id ∈ graph.reachable, graph.CanEnd id) (distinct : graph.edges.Nodup) :
    ∃ dependencies, graph.controlDependencies = .ok dependencies ∧
      (∀ branch dependent, graph.DirectlyDepends branch dependent →
        (branch, dependent) ∈ dependencies) ∧
      (∀ pair ∈ dependencies,
        pair.1 ≠ pair.2 ∧ Relation.TransGen graph.DirectlyDepends pair.1 pair.2) ∧
      dependencies.Nodup := by
  rcases Postdominators.exists_exact wellFormed canEnd with ⟨postdominators, ofGraphEq, exact⟩
  refine ⟨_, by rw [controlDependencies, ofGraphEq]; rfl, ?_, ?_, ?_⟩
  · intro branch dependent depends
    have found := depends.mem_dependents wellFormed canEnd exact distinct
    exact List.mem_flatMap.2
      ⟨branch, depends.branch_reached, List.mem_map.2 ⟨dependent, found, rfl⟩⟩
  · intro pair pairMem
    rcases List.mem_flatMap.1 pairMem with ⟨branch, reached, found⟩
    rcases List.mem_map.1 found with ⟨dependent, isDependent, rfl⟩
    exact transGen_of_mem_dependents wellFormed exact reached isDependent
  · have reachedDistinct : graph.reachable.Nodup := Search.nodup_reached _ _ _
    refine List.nodup_flatMap.2 ⟨?_, reachedDistinct.imp ?_⟩
    · intro branch _
      exact (nodup_dependents wellFormed distinct postdominators branch).map
        fun _ _ samePair => congrArg Prod.snd samePair
    · intro branch branch' differs pair pairMem pairMem'
      rcases List.mem_map.1 pairMem with ⟨_, -, rfl⟩
      rcases List.mem_map.1 pairMem' with ⟨_, -, same⟩
      exact differs (congrArg Prod.fst same).symm

/-- For every graph of a module or function the dependences are found: all direct ones, and besides
them only some that follow from direct ones, none of a block on itself and none twice. -/
theorem exists_controlDependencies_classical {root : Node} (built : ofRoot root = .ok graph) :
    ∃ dependencies, graph.controlDependencies = .ok dependencies ∧
      (∀ branch dependent, graph.DirectlyDepends branch dependent →
        (branch, dependent) ∈ dependencies) ∧
      (∀ pair ∈ dependencies,
        pair.1 ≠ pair.2 ∧ Relation.TransGen graph.DirectlyDepends pair.1 pair.2) ∧
      dependencies.Nodup := by
  have wellFormed := (ofRoot_laidOut built).wellFormed
  refine exists_controlDependencies wellFormed ?_ (nodup_edges built)
  exact fun id reached => canEnd_of_lt_size built (wellFormed.lt_size_of_mem_reachable reached)

/-- A loop that a conditional in its body may leave. -/
def conditionalBreak : Node :=
  ⟨.module [⟨.whileLoop ⟨.pass, default⟩
      [⟨.conditional ⟨.pass, default⟩ [⟨.breakLoop, default⟩] [] none, default⟩] [], default⟩],
    default⟩

/-- Whether the head of the loop is reached again depends on the conditional in its body. -/
theorem mem_controlDependencies_conditionalBreak : ∃ graph dependencies,
    ofRoot conditionalBreak = .ok graph ∧ graph.controlDependencies = .ok dependencies ∧
      (5, 2) ∈ dependencies := by
  have built : ofRoot conditionalBreak = .ok _ := rfl
  rcases exists_controlDependencies_classical built with ⟨dependencies, found, direct, -, -⟩
  refine ⟨_, dependencies, built, found, direct 5 2
    ⟨by decide +kernel, by decide +kernel, by decide, ⟨8, by decide +kernel, ?_⟩, ?_⟩⟩
  · intro blocks exit path isLast
    cases path with
    | single => exact absurd isLast (by decide +kernel)
    | @step _ next _ _ edge rest =>
        have nextEq : next = 2 :=
          (by decide +kernel : ∀ id ∈ Graph.successors _ 8, id = 2) next edge
        exact List.mem_cons_of_mem _ (nextEq ▸ rest.source_mem)
  · intro claimed
    have avoided := claimed [5, 6, 3] 3
      (.step (by decide +kernel) (.step (by decide +kernel) (.single 3))) (by decide +kernel)
    exact absurd avoided (by decide)

end Graph

end FlowAnalysis
