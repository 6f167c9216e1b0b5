import FlowAnalysis.Proofs.ControlFlow.Tracing
import Mathlib.Data.List.Nodup

/-!
# Graphs as vectors of blocks with adjacency lists

A graph can be kept as a vector of blocks that know their number, the blocks they lead to and the
blocks that lead to them. An edge is then drawn in two places: it is added to the successors of its
source and to the predecessors of its target, each unless it is listed there already, and each only
if there is such a block.

Every step of such a construction keeps the vector well-formed (`Adjacency.Step.wellFormed`), and
the construction of a graph is a sequence of such steps, in which no block is ever missing. So the
two lists agree in every graph (`Graph.exists_ofRoot_adjacency`).
-/

namespace FlowAnalysis

/-- A block with its number and the lists of its neighbours. -/
structure Vertex where
  id : BlockId
  block : Block
  successors : List BlockId
  predecessors : List BlockId

namespace Vertex

/-- Lists a block unless it is listed already. -/
def listed (id : BlockId) (ids : List BlockId) : List BlockId :=
  if id ∈ ids then ids else ids ++ [id]

/-- Lists a successor. -/
def leadTo (target : BlockId) (vertex : Vertex) : Vertex :=
  { vertex with successors := listed target vertex.successors }

/-- Lists a predecessor. -/
def followFrom (source : BlockId) (vertex : Vertex) : Vertex :=
  { vertex with predecessors := listed source vertex.predecessors }

/-- Appends a statement to the block. -/
def append (statement : Node) (vertex : Vertex) : Vertex :=
  { vertex with
    block := { vertex.block with statements := vertex.block.statements ++ [statement] } }

theorem mem_listed {id other : BlockId} {ids : List BlockId} :
    other ∈ listed id ids ↔ other ∈ ids ∨ other = id := by
  rw [listed]
  split
  · next isListed =>
      constructor
      · exact .inl
      · rintro (old | rfl)
        · exact old
        · exact isListed
  · simp

theorem nodup_listed {id : BlockId} {ids : List BlockId} (distinct : ids.Nodup) :
    (listed id ids).Nodup := by
  rw [listed]
  split
  · exact distinct
  · next notListed =>
      refine List.nodup_append.2 ⟨distinct, List.nodup_singleton id, ?_⟩
      rintro other isListed last isLast rfl
      exact notListed (List.mem_singleton.1 isLast ▸ isListed)

end Vertex

/-- Blocks with adjacency lists, in the order in which they were made. -/
abbrev Adjacency := List Vertex

namespace Adjacency

/-- The neighbours of a block on one side; a missing block has none. -/
def neighbours (side : Vertex → List BlockId) (vertices : Adjacency) (id : BlockId) :
    List BlockId :=
  (vertices[id]?.map side).getD []

def successors (vertices : Adjacency) (id : BlockId) : List BlockId :=
  vertices.neighbours Vertex.successors id

def predecessors (vertices : Adjacency) (id : BlockId) : List BlockId :=
  vertices.neighbours Vertex.predecessors id

/-- Adds a block without neighbours. -/
def newBlock (vertices : Adjacency) (block : Block) : Adjacency :=
  vertices ++ [{ id := vertices.length, block, successors := [], predecessors := [] }]

/-- Draws an edge at its source and at its target, as far as these are there. -/
def link (vertices : Adjacency) (source target : BlockId) : Adjacency :=
  (vertices.modify source (Vertex.leadTo target)).modify target (Vertex.followFrom source)

/-- Appends a statement to a block if it is there. -/
def append (vertices : Adjacency) (id : BlockId) (statement : Node) : Adjacency :=
  vertices.modify id (Vertex.append statement)

/-- A step of the construction, on blocks that are there. -/
inductive Step : Adjacency → Adjacency → Prop where
  | newBlock {vertices : Adjacency} (block : Block) : Step vertices (vertices.newBlock block)
  | link {vertices : Adjacency} {source target : BlockId} (source_lt : source < vertices.length)
      (target_lt : target < vertices.length) : Step vertices (vertices.link source target)
  | append {vertices : Adjacency} {id : BlockId} (id_lt : id < vertices.length)
      (statement : Node) : Step vertices (vertices.append id statement)

/-- Blocks are numbered in order, the lists name blocks that are there and each of them once, and a
block is a successor of another one if that one is a predecessor of it. -/
structure WellFormed (vertices : Adjacency) : Prop where
  ids_eq : vertices.map Vertex.id = List.range vertices.length
  successor_lt : ∀ {source target},
    target ∈ vertices.successors source → target < vertices.length
  predecessor_lt : ∀ {source target},
    source ∈ vertices.predecessors target → source < vertices.length
  mem_successors_iff : ∀ {source target},
    target ∈ vertices.successors source ↔ source ∈ vertices.predecessors target
  nodup_successors : ∀ id, (vertices.successors id).Nodup
  nodup_predecessors : ∀ id, (vertices.predecessors id).Nodup

variable {vertices vertices' : Adjacency} {source target id other : BlockId}
  {side : Vertex → List BlockId} {change : Vertex → Vertex}

/-! ### What steps do to the lists -/

theorem neighbours_modify_of_eq (same : ∀ vertex, side (change vertex) = side vertex) :
    neighbours side (vertices.modify other change) id = vertices.neighbours side id := by
  rw [neighbours, neighbours, List.getElem?_modify]
  cases vertices[id]? with
  | none => rfl
  | some vertex => by_cases isOther : other = id <;> simp [isOther, same]

theorem neighbours_modify {update : List BlockId → List BlockId}
    (changes : ∀ vertex, side (change vertex) = update (side vertex))
    (small : other < vertices.length) :
    neighbours side (vertices.modify other change) id =
      if id = other then update (vertices.neighbours side id)
      else vertices.neighbours side id := by
  rw [neighbours, neighbours, List.getElem?_modify]
  by_cases same : id = other
  · subst same
    simp [small, changes]
  · simp [same, Ne.symm same]

theorem neighbours_newBlock {block : Block} (isEmpty : ∀ id, side ⟨id, block, [], []⟩ = []) :
    neighbours side (vertices.newBlock block) id = vertices.neighbours side id := by
  rw [neighbours, neighbours, newBlock]
  rcases Nat.lt_trichotomy id vertices.length with small | rfl | large
  · rw [List.getElem?_append_left small]
  · simp [isEmpty]
  · rw [List.getElem?_eq_none (by simp; lia), List.getElem?_eq_none (by lia)]

theorem successors_link (small : source < vertices.length) :
    (vertices.link source target).successors id =
      if id = source then Vertex.listed target (vertices.successors id)
      else vertices.successors id := by
  have sameSide : (vertices.link source target).successors id =
      neighbours Vertex.successors (vertices.modify source (Vertex.leadTo target)) id :=
    neighbours_modify_of_eq fun _ => rfl
  rw [sameSide]
  exact neighbours_modify (fun _ => rfl) small

theorem predecessors_link (small : target < vertices.length) :
    (vertices.link source target).predecessors id =
      if id = target then Vertex.listed source (vertices.predecessors id)
      else vertices.predecessors id := by
  have sameSide : predecessors (vertices.modify source (Vertex.leadTo target)) id =
      vertices.predecessors id :=
    neighbours_modify_of_eq fun _ => rfl
  rw [← sameSide]
  exact neighbours_modify (fun _ => rfl) (by simpa using small)

theorem mem_successors_link (small : source < vertices.length) :
    other ∈ (vertices.link source target).successors id ↔
      other ∈ vertices.successors id ∨ id = source ∧ other = target := by
  rw [successors_link small]
  split
  · next same => rw [Vertex.mem_listed, and_iff_right same]
  · next differs => simp [differs]

theorem mem_predecessors_link (small : target < vertices.length) :
    other ∈ (vertices.link source target).predecessors id ↔
      other ∈ vertices.predecessors id ∨ id = target ∧ other = source := by
  rw [predecessors_link small]
  split
  · next same => rw [Vertex.mem_listed, and_iff_right same]
  · next differs => simp [differs]

theorem length_link : (vertices.link source target).length = vertices.length := by
  simp [link]

theorem map_id_modify (same : ∀ vertex : Vertex, (change vertex).id = vertex.id) :
    (vertices.modify other change).map Vertex.id = vertices.map Vertex.id := by
  apply List.ext_getElem?
  intro id
  rw [List.getElem?_map, List.getElem?_map, List.getElem?_modify]
  cases vertices[id]? with
  | none => rfl
  | some vertex => by_cases isOther : other = id <;> simp [isOther, same]

theorem map_id_link : (vertices.link source target).map Vertex.id = vertices.map Vertex.id := by
  have atTarget : (vertices.link source target).map Vertex.id =
      (vertices.modify source (Vertex.leadTo target)).map Vertex.id := map_id_modify fun _ => rfl
  rw [atTarget]
  exact map_id_modify fun _ => rfl

/-! ### Well-formed vectors -/

theorem wellFormed_nil : WellFormed [] where
  ids_eq := rfl
  successor_lt isSuccessor := absurd isSuccessor List.not_mem_nil
  predecessor_lt isPredecessor := absurd isPredecessor List.not_mem_nil
  mem_successors_iff := by simp [successors, predecessors, neighbours]
  nodup_successors _ := List.nodup_nil
  nodup_predecessors _ := List.nodup_nil

namespace WellFormed

variable (wellFormed : vertices.WellFormed)

include wellFormed

/-- What keeps the lists of neighbours and numbers the blocks in order keeps a vector
well-formed. -/
theorem of_same (ids_eq : vertices'.map Vertex.id = List.range vertices'.length)
    (length_le : vertices.length ≤ vertices'.length)
    (sameSuccessors : vertices'.successors = vertices.successors)
    (samePredecessors : vertices'.predecessors = vertices.predecessors) :
    vertices'.WellFormed where
  ids_eq := ids_eq
  successor_lt isSuccessor := by
    rw [sameSuccessors] at isSuccessor
    exact Nat.lt_of_lt_of_le (wellFormed.successor_lt isSuccessor) length_le
  predecessor_lt isPredecessor := by
    rw [samePredecessors] at isPredecessor
    exact Nat.lt_of_lt_of_le (wellFormed.predecessor_lt isPredecessor) length_le
  mem_successors_iff := by
    rw [sameSuccessors, samePredecessors]
    exact wellFormed.mem_successors_iff
  nodup_successors := by
    rw [sameSuccessors]
    exact wellFormed.nodup_successors
  nodup_predecessors := by
    rw [samePredecessors]
    exact wellFormed.nodup_predecessors

theorem newBlock (block : Block) : (vertices.newBlock block).WellFormed := by
  apply wellFormed.of_same
  · rw [Adjacency.newBlock, List.map_append, wellFormed.ids_eq, List.length_append,
      List.length_singleton, List.range_succ]
    rfl
  · simp [Adjacency.newBlock]
  · exact funext fun id => neighbours_newBlock fun _ => rfl
  · exact funext fun id => neighbours_newBlock fun _ => rfl

theorem append (id : BlockId) (statement : Node) : (vertices.append id statement).WellFormed := by
  apply wellFormed.of_same
  · rw [Adjacency.append, List.length_modify, ← wellFormed.ids_eq]
    exact map_id_modify fun _ => rfl
  · simp [Adjacency.append]
  · exact funext fun id => neighbours_modify_of_eq fun _ => rfl
  · exact funext fun id => neighbours_modify_of_eq fun _ => rfl

theorem link (sourceLt : source < vertices.length) (targetLt : target < vertices.length) :
    (vertices.link source target).WellFormed where
  ids_eq := by
    rw [length_link, map_id_link, wellFormed.ids_eq]
  successor_lt isSuccessor := by
    rw [length_link]
    rcases (mem_successors_link sourceLt).1 isSuccessor with old | ⟨-, rfl⟩
    · exact wellFormed.successor_lt old
    · exact targetLt
  predecessor_lt isPredecessor := by
    rw [length_link]
    rcases (mem_predecessors_link targetLt).1 isPredecessor with old | ⟨-, rfl⟩
    · exact wellFormed.predecessor_lt old
    · exact sourceLt
  mem_successors_iff := by
    intro id other
    rw [mem_successors_link sourceLt, mem_predecessors_link targetLt,
      wellFormed.mem_successors_iff, and_comm]
  nodup_successors id := by
    rw [successors_link sourceLt]
    split
    · exact Vertex.nodup_listed (wellFormed.nodup_successors id)
    · exact wellFormed.nodup_successors id
  nodup_predecessors id := by
    rw [predecessors_link targetLt]
    split
    · exact Vertex.nodup_listed (wellFormed.nodup_predecessors id)
    · exact wellFormed.nodup_predecessors id

end WellFormed

/-- Every step keeps a vector well-formed. -/
theorem Step.wellFormed (step : Step vertices vertices') (wellFormed : vertices.WellFormed) :
    vertices'.WellFormed := by
  cases step with
  | newBlock block => exact wellFormed.newBlock block
  | link sourceLt targetLt => exact wellFormed.link sourceLt targetLt
  | append idLt statement => exact wellFormed.append _ statement

/-- What is made from nothing, step by step, is well-formed. -/
theorem wellFormed_of_steps (steps : Relation.ReflTransGen Step [] vertices) :
    vertices.WellFormed := by
  induction steps with
  | refl => exact wellFormed_nil
  | tail _ step ih => exact step.wellFormed ih

end Adjacency

/-! ### The vector of a graph -/

/-- The blocks of a graph with their successors and predecessors. -/
def Graph.adjacency (graph : Graph) : Adjacency :=
  graph.blocks.mapIdx fun id block =>
    { id, block, successors := graph.successors id, predecessors := graph.predecessors id }

namespace Layout

variable {layout layout' : Layout} {id source target : BlockId}

/-- What has been laid out so far, as a graph. -/
def graph (layout : Layout) : Graph :=
  { blocks := layout.blocks, edges := layout.edges, entry := 0, exceptionalExit := 0 }

theorem getElem?_adjacency : layout.graph.adjacency[id]? = layout.blocks[id]?.map fun block =>
    { id, block
      successors := layout.graph.successors id
      predecessors := layout.graph.predecessors id } :=
  List.getElem?_mapIdx

theorem length_adjacency : layout.graph.adjacency.length = layout.size :=
  List.length_mapIdx

theorem InRange.successors_eq_nil (inRange : layout.InRange) :
    layout.graph.successors layout.size = [] := by
  refine List.eq_nil_iff_forall_not_mem.2 fun target isSuccessor => ?_
  have := inRange _ (Graph.mem_successors.1 isSuccessor)
  lia

theorem InRange.predecessors_eq_nil (inRange : layout.InRange) :
    layout.graph.predecessors layout.size = [] := by
  refine List.eq_nil_iff_forall_not_mem.2 fun source isPredecessor => ?_
  have := inRange _ (Graph.mem_predecessors.1 isPredecessor)
  lia

/-- A new block has no neighbours, since edges lead from blocks to blocks. -/
theorem adjacency_newBlock (inRange : layout.InRange) (around : Surroundings) (role : BlockRole)
    (nodes : List Node) : ((newBlock around role nodes).run layout).2.graph.adjacency =
      layout.graph.adjacency.newBlock
        { role, statements := nodes, loopVariables := around.loopVariables } := by
  refine List.mapIdx_concat.trans ?_
  change _ ++ [(⟨layout.size, _, layout.graph.successors layout.size,
    layout.graph.predecessors layout.size⟩ : Vertex)] = _
  rw [inRange.successors_eq_nil, inRange.predecessors_eq_nil, Adjacency.newBlock,
    length_adjacency]
  rfl

theorem adjacency_append (id : BlockId) (statement : Node) :
    ((append id statement).run layout).2.graph.adjacency =
      layout.graph.adjacency.append id statement := by
  apply List.ext_getElem?
  intro other
  rw [Adjacency.append, List.getElem?_modify, getElem?_adjacency, getElem?_adjacency]
  change Option.map _ (layout.blocks.modify id _)[other]? = _
  rw [List.getElem?_modify]
  cases layout.blocks[other]? with
  | none => rfl
  | some block =>
      by_cases same : id = other
      · simp only [same, if_true]
        rfl
      · simp only [same, if_false]
        rfl

/-- An edge that is drawn is listed at its near end, where it is told by its far end. -/
theorem map_filter_link {near far : BlockId × BlockId → BlockId}
    (told : ∀ edge other, near edge = near other → far edge = far other → edge = other)
    (source target : BlockId) :
    (((link source target).run layout).2.edges.filter fun edge => near edge == id).map far =
      if near (source, target) = id then
        Vertex.listed (far (source, target))
          ((layout.edges.filter fun edge => near edge == id).map far)
      else (layout.edges.filter fun edge => near edge == id).map far := by
  have edgesEq : ((link source target).run layout).2.edges =
      if (source, target) ∈ layout.edges then layout.edges
      else layout.edges ++ [(source, target)] := by
    change (if (source, target) ∈ layout.edges then layout else _).edges = _
    split <;> rfl
  rw [edgesEq]
  by_cases isNear : near (source, target) = id
  · have isListed : far (source, target) ∈
        (layout.edges.filter fun edge => near edge == id).map far ↔
          (source, target) ∈ layout.edges := by
      simp only [List.mem_map, List.mem_filter, beq_iff_eq]
      constructor
      · rintro ⟨edge, ⟨drawn, sameNear⟩, sameFar⟩
        rwa [← told edge _ (sameNear.trans isNear.symm) sameFar]
      · exact fun drawn => ⟨_, ⟨drawn, isNear⟩, rfl⟩
    rw [if_pos isNear, Vertex.listed]
    simp only [isListed]
    split
    · rfl
    · simp [isNear]
  · split <;> simp [isNear]

theorem successors_link (source target : BlockId) :
    ((link source target).run layout).2.graph.successors id =
      if source = id then Vertex.listed target (layout.graph.successors id)
      else layout.graph.successors id :=
  map_filter_link (fun _ _ sameSource sameTarget => Prod.ext sameSource sameTarget) source target

theorem predecessors_link (source target : BlockId) :
    ((link source target).run layout).2.graph.predecessors id =
      if target = id then Vertex.listed source (layout.graph.predecessors id)
      else layout.graph.predecessors id :=
  map_filter_link (fun _ _ sameTarget sameSource => Prod.ext sameSource sameTarget) source target

theorem adjacency_link (source target : BlockId) :
    ((link source target).run layout).2.graph.adjacency =
      layout.graph.adjacency.link source target := by
  have run : (link source target).run layout = ((), ((link source target).run layout).2) := rfl
  apply List.ext_getElem?
  intro id
  rw [Adjacency.link, List.getElem?_modify, List.getElem?_modify, getElem?_adjacency,
    getElem?_adjacency, (of_run_link run).1, successors_link, predecessors_link]
  cases layout.blocks[id]? with
  | none => rfl
  | some block =>
      by_cases isSource : source = id <;> by_cases isTarget : target = id <;>
        simp [isSource, isTarget, Vertex.leadTo, Vertex.followFrom]

/-- A step of the construction is one on vectors, and edges lead from blocks to blocks behind it. -/
theorem Step.adjacency (step : Step layout layout') (inRange : layout.InRange) :
    layout'.InRange ∧ Adjacency.Step layout.graph.adjacency layout'.graph.adjacency := by
  cases step with
  | newBlock around role nodes =>
      rw [adjacency_newBlock inRange]
      refine ⟨fun edge drawn => ?_, .newBlock _⟩
      have := inRange edge drawn
      rw [size_newBlock]
      lia
  | @link source target sourceLt targetLt =>
      have run : (Layout.link source target).run layout = ((), _) := rfl
      rw [adjacency_link]
      refine ⟨fun edge drawn => ?_, .link ?_ ?_⟩
      · rw [size_link]
        rcases ((of_run_link run).2 edge).1 drawn with old | rfl
        · exact inRange edge old
        · exact ⟨sourceLt, targetLt⟩
      · rwa [length_adjacency]
      · rwa [length_adjacency]
  | @append id idLt statement =>
      rw [adjacency_append]
      refine ⟨fun edge drawn => ?_, .append ?_ statement⟩
      · rw [size_append]
        exact inRange edge drawn
      · rwa [length_adjacency]

theorem adjacency_of_steps (steps : Relation.ReflTransGen Step {} layout) :
    layout.InRange ∧ Relation.ReflTransGen Adjacency.Step [] layout.graph.adjacency := by
  induction steps with
  | refl => exact ⟨fun edge drawn => absurd drawn List.not_mem_nil, .refl⟩
  | tail _ step ih =>
      rcases step.adjacency ih.1 with ⟨inRange, next⟩
      exact ⟨inRange, ih.2.tail next⟩

end Layout

namespace Graph

variable {graph : Graph} {id : BlockId}

/-- The vector lists what the graph does, also where there is no block. -/
theorem neighbours_adjacency {side : Vertex → List BlockId} {ids : BlockId → List BlockId}
    (same : ∀ id block, side ⟨id, block, graph.successors id, graph.predecessors id⟩ = ids id)
    (noMore : ∀ other, other ∈ ids id → id < graph.size) :
    graph.adjacency.neighbours side id = ids id := by
  rw [Adjacency.neighbours, adjacency, List.getElem?_mapIdx]
  by_cases small : id < graph.blocks.length
  · simp [small, same]
  · rw [List.getElem?_eq_none (Nat.le_of_not_lt small)]
    refine (List.eq_nil_iff_forall_not_mem.2 fun other isListed => ?_).symm
    exact small (noMore other isListed)

theorem successors_adjacency (wellFormed : graph.WellFormed) :
    graph.adjacency.successors id = graph.successors id :=
  neighbours_adjacency (fun _ _ => rfl) fun _ isSuccessor =>
    wellFormed.source_lt _ (mem_successors.1 isSuccessor)

theorem predecessors_adjacency (wellFormed : graph.WellFormed) :
    graph.adjacency.predecessors id = graph.predecessors id :=
  neighbours_adjacency (fun _ _ => rfl) fun _ isPredecessor =>
    wellFormed.target_lt _ (mem_predecessors.1 isPredecessor)

/-- The graph of every module or function is made from nothing by steps on blocks that are there,
and well-formed. The first block is the exceptional exit, which is empty and leads nowhere, and the
second one is the entry, to which nothing leads. -/
theorem exists_ofRoot_adjacency {root : Node} {statements : List Node}
    (isRoot : root.shape = .module statements ∨
      ∃ name params decorators, root.shape = .definition name params statements decorators) :
    ∃ graph, ofRoot root = .ok graph ∧
      Relation.ReflTransGen Adjacency.Step [] graph.adjacency ∧ graph.adjacency.WellFormed ∧
      (∀ id, graph.adjacency.successors id = graph.successors id ∧
        graph.adjacency.predecessors id = graph.predecessors id) ∧
      graph.exceptionalExit = 0 ∧
      (∃ exit, graph.adjacency[0]? = some exit ∧ exit.block.statements = [] ∧
        exit.successors = []) ∧
      graph.entry = 1 ∧
      ∃ entry, graph.adjacency[1]? = some entry ∧ entry.predecessors = [] := by
  have built : ofRoot root = .ok (ofStatements statements) := by
    rcases isRoot with isModule | ⟨name, params, decorators, isDefinition⟩
    · rw [ofRoot, isModule]
    · rw [ofRoot, isDefinition]
  have laid := ofRoot_laidOut built
  have wellFormed := laid.wellFormed
  have exitEq : (ofStatements statements).exceptionalExit = 0 := rfl
  have entryEq : (ofStatements statements).entry = 1 := rfl
  have steps : Relation.ReflTransGen Adjacency.Step [] (ofStatements statements).adjacency :=
    (Layout.adjacency_of_steps (Layout.Traces.layProgram _)).2
  generalize ofStatements statements = graph at *
  have entryLt := wellFormed.entry_lt
  have hasExit : 0 < graph.blocks.length := by
    rw [entryEq] at entryLt
    exact Nat.lt_of_succ_lt entryLt
  have hasEntry : 1 < graph.blocks.length := entryEq ▸ entryLt
  refine ⟨graph, built, steps, Adjacency.wellFormed_of_steps steps,
    fun id => ⟨successors_adjacency wellFormed, predecessors_adjacency wellFormed⟩, exitEq,
    ⟨⟨0, graph.blocks[0], graph.successors 0, graph.predecessors 0⟩, ?_, ?_, ?_⟩, entryEq,
    ⟨1, graph.blocks[1], graph.successors 1, graph.predecessors 1⟩, ?_, ?_⟩
  · simp [adjacency, hasExit]
  · have empty := laid.exit_statements
    rw [exitEq, Graph.statements, block?, List.getElem?_eq_getElem hasExit] at empty
    exact empty
  · refine List.eq_nil_iff_forall_not_mem.2 fun target isSuccessor => ?_
    have leads := laid.exit_leads target
    rw [exitEq] at leads
    exact List.not_mem_nil (leads.1 isSuccessor)
  · simp [adjacency, hasEntry]
  · refine List.eq_nil_iff_forall_not_mem.2 fun source isPredecessor => ?_
    exact wellFormed.target_ne_entry _ (mem_predecessors.1 isPredecessor) entryEq.symm

/-- A condition behind which an exception is raised. -/
def raisingBranch : Node :=
  ⟨.module [⟨.conditional ⟨.name "c", default⟩ [⟨.raiseError none, default⟩] [] none, default⟩],
    default⟩

/-- Control does not come to the block behind the exception, and still the block after the condition
lists it as a predecessor, and it lists that block as a successor. -/
theorem exists_ofRoot_adjacency_raisingBranch : ∃ graph,
    ofRoot raisingBranch = .ok graph ∧ graph.adjacency.WellFormed ∧
      graph.adjacency.map Vertex.successors = [[], [2], [3, 5], [0], [5], []] ∧
      graph.adjacency.map Vertex.predecessors = [[3], [], [1], [2], [], [4, 2]] ∧
      4 ∉ graph.reachable := by
  have isModule : raisingBranch.shape = .module _ := rfl
  rcases exists_ofRoot_adjacency (.inl isModule) with
    ⟨graph, built, -, wellFormed, -⟩
  refine ⟨graph, built, wellFormed, ?_⟩
  cases built
  exact ⟨by decide +kernel, by decide +kernel, by decide +kernel⟩

end Graph

end FlowAnalysis
