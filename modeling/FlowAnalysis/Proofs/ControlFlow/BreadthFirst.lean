import FlowAnalysis.Proofs.ControlFlow.Postdominance

/-!
# The order of the reachable blocks

A traversal keeps the blocks to come in a queue and marks a block when it takes it out of the queue,
so a block can stand in the queue several times, also after it has been visited. It visits the
blocks that `Graph.reachable` lists, in that order: what it visits of a queue is the next layer of a
search, and what it enqueues meanwhile is the queue for the layer after that. The layers are the
blocks at distance zero, one, two and so on from the entry.
-/

namespace FlowAnalysis

namespace Search

variable {Vertex : Type} [DecidableEq Vertex] {step : Vertex → List Vertex}

/-! ### A queue of vertices -/

/-- From a queue, and the vertices visited so far, a traversal visits some vertices in order: it
takes out the first vertex and, unless that has been visited, visits it and enqueues the vertices
one step behind it. -/
inductive Dequeues (step : Vertex → List Vertex) :
    List Vertex → List Vertex → List Vertex → Prop where
  | done (visited : List Vertex) : Dequeues step [] visited []
  | skip {first : Vertex} {queue visited order : List Vertex} (old : first ∈ visited)
      (rest : Dequeues step queue visited order) : Dequeues step (first :: queue) visited order
  | visit {first : Vertex} {queue visited order : List Vertex} (new : first ∉ visited)
      (rest : Dequeues step (queue ++ step first) (visited ++ [first]) order) :
      Dequeues step (first :: queue) visited (first :: order)

omit [DecidableEq Vertex] in
/-- A traversal can go only one way. -/
theorem Dequeues.unique {queue visited order order' : List Vertex}
    (dequeues : Dequeues step queue visited order)
    (dequeues' : Dequeues step queue visited order') : order' = order := by
  induction dequeues generalizing order' with
  | done => cases dequeues' with | done => rfl
  | skip old _ ih =>
      cases dequeues' with
      | skip _ rest' => exact ih rest'
      | visit new' _ => exact absurd old new'
  | visit new _ ih =>
      cases dequeues' with
      | skip old' _ => exact absurd old' new
      | visit _ rest' => rw [ih rest']

/-- The vertices of a queue that have not been visited, each where it comes first. -/
def unvisited (visited queue : List Vertex) : List Vertex :=
  (queue.filter fun vertex => vertex ∉ visited).eraseDups

theorem unvisited_cons_of_mem {first : Vertex} {visited queue : List Vertex}
    (old : first ∈ visited) : unvisited visited (first :: queue) = unvisited visited queue := by
  simp [unvisited, old]

theorem unvisited_cons_of_not_mem {first : Vertex} {visited queue : List Vertex}
    (new : first ∉ visited) :
    unvisited visited (first :: queue) = first :: unvisited (visited ++ [first]) queue := by
  simp only [unvisited, new, not_false_eq_true, decide_true, List.filter_cons_of_pos,
    List.eraseDups_cons, List.filter_filter, List.mem_append, List.mem_singleton]
  congr 3
  funext vertex
  by_cases isOld : vertex ∈ visited <;> by_cases isFirst : vertex = first <;> simp [isOld, isFirst]

/-- A traversal first visits what is unvisited in its queue, and meanwhile enqueues what lies behind
these vertices. -/
theorem Dequeues.append {queue later visited order : List Vertex}
    (dequeues : Dequeues step (later ++ (unvisited visited queue).flatMap step)
      (visited ++ unvisited visited queue) order) :
    Dequeues step (queue ++ later) visited (unvisited visited queue ++ order) := by
  induction queue generalizing later visited with
  | nil => simpa [unvisited] using dequeues
  | cons first queue ih =>
      by_cases old : first ∈ visited
      · rw [unvisited_cons_of_mem old] at dequeues ⊢
        exact .skip old (ih dequeues)
      · rw [unvisited_cons_of_not_mem old] at dequeues ⊢
        rw [List.cons_append, List.cons_append]
        refine .visit old ?_
        rw [List.append_assoc]
        exact ih (by simpa using dequeues)

/-- What a traversal enqueues while it visits a layer is the queue for the next one. -/
theorem Dequeues.layer {queue visited frontier order : List Vertex}
    (frontierEq : unvisited visited queue = frontier)
    (dequeues : Dequeues step (frontier.flatMap step) (visited ++ frontier) order) :
    Dequeues step queue visited (frontier ++ order) := by
  subst frontierEq
  have appended : Dequeues step (queue ++ []) visited (unvisited visited queue ++ order) :=
    .append dequeues
  rwa [List.append_nil] at appended

/-- A traversal goes layer by layer: the frontier of a search is what is unvisited in the queue. -/
theorem dequeues_layersFrom {domain : List Vertex}
    (stays : ∀ source ∈ domain, ∀ target ∈ step source, target ∈ domain) {bound : Nat}
    {queue visited frontier : List Vertex} (frontierEq : unvisited visited queue = frontier)
    (underway : Underway domain bound (visited ++ frontier) frontier) :
    Dequeues step queue visited (layersFrom step bound (visited ++ frontier) frontier).flatten := by
  induction bound generalizing queue visited frontier with
  | zero =>
      have isDone := underway.eq_nil_or_ne_zero.resolve_right (by simp)
      subst isDone
      exact .layer frontierEq (.done _)
  | succ bound ih =>
      rw [layersFrom]
      split
      · next isDone =>
          rcases List.isEmpty_iff.1 isDone with rfl
          exact .layer frontierEq (.done _)
      · next notDone =>
          have next := underway.next stays fun isDone => notDone (List.isEmpty_iff.2 isDone)
          exact .layer frontierEq (ih rfl next)

/-! ### Distances -/

/-- Some number of steps leads from one of the starting vertices to a vertex. -/
inductive ReachedIn (step : Vertex → List Vertex) (starts : List Vertex) : Nat → Vertex → Prop where
  | start {vertex : Vertex} (isStart : vertex ∈ starts) : ReachedIn step starts 0 vertex
  | step {count : Nat} {source target : Vertex} (reached : ReachedIn step starts count source)
      (isStep : target ∈ step source) : ReachedIn step starts (count + 1) target

/-- The first vertex is at most as far from the starting vertices as the second one. -/
def NoFarther (step : Vertex → List Vertex) (starts : List Vertex) (first second : Vertex) : Prop :=
  ∀ count, ReachedIn step starts count second →
    ∃ fewer ≤ count, ReachedIn step starts fewer first

/-- What has been found is what a number of steps and any lower number lead to; the frontier is what
has not been found with fewer steps. -/
structure Layered (step : Vertex → List Vertex) (starts : List Vertex) (count : Nat)
    (found frontier : List Vertex) : Prop where
  mem_found_iff : ∀ vertex, vertex ∈ found ↔ ∃ fewer ≤ count, ReachedIn step starts fewer vertex
  frontier_reached : ∀ vertex ∈ frontier, ReachedIn step starts count vertex
  le_of_frontier : ∀ vertex ∈ frontier, ∀ other, ReachedIn step starts other vertex → count ≤ other
  mem_frontier : ∀ vertex ∈ found, vertex ∉ frontier →
    ∃ fewer < count, ReachedIn step starts fewer vertex

variable {starts : List Vertex} {count : Nat} {found frontier : List Vertex}

theorem layered_start : Layered step starts 0 starts.eraseDups starts.eraseDups where
  mem_found_iff := by
    intro vertex
    rw [List.mem_eraseDups]
    constructor
    · exact fun isStart => ⟨0, Nat.le_refl 0, .start isStart⟩
    · rintro ⟨fewer, noMore, reached⟩
      rcases Nat.le_zero.1 noMore with rfl
      cases reached with | start isStart => exact isStart
  frontier_reached := fun vertex isStart => .start (List.mem_eraseDups.1 isStart)
  le_of_frontier := fun _ _ _ _ => Nat.zero_le _
  mem_frontier := fun _ isStart notStart => absurd isStart notStart

namespace Layered

variable (layered : Layered step starts count found frontier)

include layered

/-- One step more leads to what was found before and to the next layer. -/
theorem next : Layered step starts (count + 1) (found ++ fresh step found frontier)
    (fresh step found frontier) where
  mem_found_iff := by
    intro vertex
    rw [List.mem_append]
    constructor
    · rintro (old | new)
      · rcases (layered.mem_found_iff vertex).1 old with ⟨fewer, noMore, reached⟩
        exact ⟨fewer, Nat.le_succ_of_le noMore, reached⟩
      · rcases mem_fresh.1 new with ⟨⟨source, onFrontier, isStep⟩, -⟩
        exact ⟨count + 1, Nat.le_refl _, .step (layered.frontier_reached source onFrontier) isStep⟩
    · rintro ⟨fewer, noMore, reached⟩
      by_cases old : vertex ∈ found
      · exact .inl old
      · right
        have farther : count < fewer := by
          by_contra noFarther
          exact old ((layered.mem_found_iff vertex).2 ⟨fewer, Nat.not_lt.1 noFarther, reached⟩)
        rcases Nat.le_antisymm noMore farther with rfl
        cases reached with
        | @step _ source _ reached isStep =>
            -- A source that had been found with fewer steps would have led here before.
            have onFrontier : source ∈ frontier := by
              by_contra notOnFrontier
              have isFound := (layered.mem_found_iff source).2 ⟨count, Nat.le_refl _, reached⟩
              rcases layered.mem_frontier source isFound notOnFrontier with ⟨fewer, less, earlier⟩
              exact old ((layered.mem_found_iff vertex).2 ⟨fewer + 1, less, .step earlier isStep⟩)
            exact mem_fresh.2 ⟨⟨source, onFrontier, isStep⟩, old⟩
  frontier_reached := by
    intro vertex new
    rcases mem_fresh.1 new with ⟨⟨source, onFrontier, isStep⟩, -⟩
    exact .step (layered.frontier_reached source onFrontier) isStep
  le_of_frontier := by
    intro vertex new other reached
    by_contra nearer
    have isFound : vertex ∈ found :=
      (layered.mem_found_iff vertex).2 ⟨other, by omega, reached⟩
    exact (mem_fresh.1 new).2 isFound
  mem_frontier := by
    intro vertex isFound notNew
    have old := (List.mem_append.1 isFound).resolve_right notNew
    rcases (layered.mem_found_iff vertex).1 old with ⟨fewer, noMore, reached⟩
    exact ⟨fewer, Nat.lt_succ_of_le noMore, reached⟩

/-- Later layers are farther away. -/
theorem pairwise_layersFrom (bound : Nat) :
    (layersFrom step bound found frontier).flatten.Pairwise (NoFarther step starts) ∧
      ∀ vertex ∈ (layersFrom step bound found frontier).flatten, ∀ other,
        ReachedIn step starts other vertex → count ≤ other := by
  induction bound generalizing count found frontier with
  | zero => simp [layersFrom]
  | succ bound ih =>
      rw [layersFrom]
      split
      · simp
      · rcases ih layered.next with ⟨ordered, farther⟩
        rw [List.flatten_cons, List.pairwise_append]
        refine ⟨⟨?_, ordered, ?_⟩, ?_⟩
        · refine List.pairwise_of_forall_mem_list fun first onFrontier second onFrontier' => ?_
          intro other reached
          exact ⟨count, layered.le_of_frontier second onFrontier' other reached,
            layered.frontier_reached first onFrontier⟩
        · intro first onFrontier second later other reached
          have isFarther := farther second later other reached
          exact ⟨count, by omega, layered.frontier_reached first onFrontier⟩
        · intro vertex isMember other reached
          rcases List.mem_append.1 isMember with onFrontier | later
          · exact layered.le_of_frontier vertex onFrontier other reached
          · exact Nat.le_of_succ_le (farther vertex later other reached)

end Layered

end Search

namespace Graph

variable {graph : Graph} {id : BlockId}

theorem Path.reachedIn {starts : List BlockId} {source target : BlockId} {blocks : List BlockId}
    (path : graph.Path source blocks target) {count : Nat}
    (reached : Search.ReachedIn graph.successors starts count source) :
    ∃ steps, blocks.length = steps + 1 ∧
      Search.ReachedIn graph.successors starts (count + steps) target := by
  induction path generalizing count with
  | single id => exact ⟨0, rfl, reached⟩
  | step edge _ ih =>
      rcases ih (.step reached edge) with ⟨steps, lengthEq, reached⟩
      refine ⟨steps + 1, by rw [List.length_cons, lengthEq], ?_⟩
      rwa [Nat.add_comm steps, ← Nat.add_assoc]

theorem exists_path_of_reachedIn {count : Nat}
    (reached : Search.ReachedIn graph.successors [graph.entry] count id) :
    ∃ blocks, graph.Path graph.entry blocks id ∧ blocks.length = count + 1 := by
  induction reached with
  | start isStart =>
      rcases List.mem_singleton.1 isStart with rfl
      exact ⟨_, .single _, rfl⟩
  | step _ edge ih =>
      rcases ih with ⟨blocks, path, lengthEq⟩
      exact ⟨_, path.extend edge, by simp [lengthEq]⟩

/-- The shortest paths to the first block have at most as many edges as those to the second one. -/
def NoFartherThan (graph : Graph) (first second : BlockId) : Prop :=
  ∀ blocks, graph.Path graph.entry blocks second →
    ∃ blocks', graph.Path graph.entry blocks' first ∧ blocks'.length ≤ blocks.length

theorem noFartherThan_of_noFarther {first second : BlockId}
    (noFarther : Search.NoFarther graph.successors [graph.entry] first second) :
    graph.NoFartherThan first second := by
  intro blocks path
  rcases path.reachedIn (.start List.mem_cons_self) with ⟨steps, lengthEq, reached⟩
  rcases noFarther _ reached with ⟨fewer, noMore, reached⟩
  rcases exists_path_of_reachedIn reached with ⟨blocks', path', lengthEq'⟩
  exact ⟨blocks', path', by omega⟩

/-- The traversal of the graph of a program from its entry comes to an end. It visits the blocks to
which a path leads from the entry, each once, the entry first and none before a nearer one. -/
theorem dequeues_iff_reachable {root : Node} (built : ofRoot root = .ok graph) :
    (∀ order, Search.Dequeues graph.successors [graph.entry] [] order ↔ order = graph.reachable) ∧
    (∀ id, id ∈ graph.reachable ↔ ∃ blocks, graph.Path graph.entry blocks id) ∧
    (∀ id ∈ graph.reachable, id < graph.size) ∧
    graph.reachable.Nodup ∧
    graph.reachable.head? = some graph.entry ∧
    graph.reachable.Pairwise graph.NoFartherThan := by
  have wellFormed := (ofRoot_laidOut built).wellFormed
  have entryInside : [graph.entry] ⊆ List.range graph.size := by simpa using wellFormed.entry_lt
  have stays : ∀ source ∈ List.range graph.size, ∀ target ∈ graph.successors source,
      target ∈ List.range graph.size := by
    intro source _ target edge
    exact List.mem_range.2 (wellFormed.target_lt _ (mem_successors.1 edge))
  have dequeues : Search.Dequeues graph.successors [graph.entry] [] graph.reachable :=
    Search.dequeues_layersFrom stays rfl
      (Search.underway_start entryInside (by simp))
  have layered : Search.Layered graph.successors [graph.entry] 0 _ _ := Search.layered_start
  have ordered := (layered.pairwise_layersFrom graph.size).1
  refine ⟨fun order => ⟨dequeues.unique, fun orderEq => orderEq ▸ dequeues⟩,
    fun id => wellFormed.mem_reachable_iff, fun id => wellFormed.lt_size_of_mem_reachable,
    Search.nodup_reached _ _ _, ?_, ordered.imp noFartherThan_of_noFarther⟩
  generalize graph.reachable = order at dequeues
  cases dequeues with
  | skip old _ => exact absurd old List.not_mem_nil
  | visit _ _ => rfl

/-- A loop whose head control reaches from the end of its body and from within it. -/
def reenteredLoop : Node :=
  ⟨.module [⟨.whileLoop ⟨.name "c", default⟩
    [⟨.conditional ⟨.name "d", default⟩ [⟨.continueLoop, default⟩] [] none, default⟩] [], default⟩],
    default⟩

/-- The head is enqueued three times and visited once; what follows the loop is no farther away than
the condition in it. -/
theorem dequeues_reenteredLoop : ∃ graph, ofRoot reenteredLoop = .ok graph ∧
    graph.edges.map Prod.snd = [2, 5, 2, 6, 8, 8, 4, 2, 3] ∧
    Search.Dequeues graph.successors [graph.entry] [] [1, 2, 4, 3, 5, 6, 8] ∧
    graph.NoFartherThan 3 5 := by
  have built : ofRoot reenteredLoop = .ok _ := rfl
  rcases dequeues_iff_reachable built with ⟨visits, -, -, -, -, ordered⟩
  refine ⟨_, built, by decide +kernel, (visits _).2 (by decide +kernel), ?_⟩
  have reachableEq : (ofStatements reenteredLoop.body).reachable = [1, 2, 4] ++ [3, 5, 6, 8] := by
    decide +kernel
  have later := (List.pairwise_append.1 (reachableEq ▸ ordered)).2.1
  exact List.rel_of_pairwise_cons later List.mem_cons_self

end Graph

end FlowAnalysis
