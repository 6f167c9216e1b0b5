import FlowAnalysis.ControlFlow.Graph
import FlowAnalysis.Proofs.Search

/-!
# Paths of a graph

A path lists the blocks that control passes, its first and its last block included; the trace of a
path lists the statements that it meets. In a graph whose edges and entry are among its blocks, the
blocks that `Graph.reachable` lists are those at which some path from the entry ends.
-/

namespace FlowAnalysis

namespace Graph

/-- A path from a block to a block, given as the list of the blocks on it. -/
inductive Path (graph : Graph) : BlockId → List BlockId → BlockId → Prop where
  | single (id : BlockId) : Path graph id [id] id
  | step {source next target : BlockId} {blocks : List BlockId}
      (edge : next ∈ graph.successors source) (rest : Path graph next blocks target) :
      Path graph source (source :: blocks) target

/-- The statements met along a list of blocks. -/
def trace (graph : Graph) (blocks : List BlockId) : List Node :=
  blocks.flatMap graph.statements

/-- Edges and entry are among the blocks, and control never returns to the entry. -/
structure WellFormed (graph : Graph) : Prop where
  source_lt : ∀ edge ∈ graph.edges, edge.1 < graph.size
  target_lt : ∀ edge ∈ graph.edges, edge.2 < graph.size
  entry_lt : graph.entry < graph.size
  target_ne_entry : ∀ edge ∈ graph.edges, edge.2 ≠ graph.entry

variable {graph : Graph}

@[simp]
theorem mem_successors {source target : BlockId} :
    target ∈ graph.successors source ↔ (source, target) ∈ graph.edges := by
  simp [successors]

@[simp]
theorem mem_predecessors {source target : BlockId} :
    source ∈ graph.predecessors target ↔ (source, target) ∈ graph.edges := by
  simp [predecessors]

@[simp]
theorem trace_nil : graph.trace [] = [] := rfl

@[simp]
theorem trace_cons (id : BlockId) (blocks : List BlockId) :
    graph.trace (id :: blocks) = graph.statements id ++ graph.trace blocks := by
  simp [trace]

@[simp]
theorem trace_append (left right : List BlockId) :
    graph.trace (left ++ right) = graph.trace left ++ graph.trace right := by
  simp [trace]

/-- A statement that is met along some blocks stands in one of them. -/
theorem exists_of_trace_eq {blocks : List BlockId} {earlier later : List Node} {statement : Node}
    (traceEq : graph.trace blocks = earlier ++ statement :: later) :
    ∃ before id after front back, blocks = before ++ id :: after ∧
      graph.statements id = front ++ statement :: back ∧
      earlier = graph.trace before ++ front := by
  induction blocks generalizing earlier with
  | nil => simp at traceEq
  | cons first rest ih =>
      have inRest : ∀ front : List Node, earlier = graph.statements first ++ front →
          graph.trace rest = front ++ statement :: later →
          ∃ before id after front back, first :: rest = before ++ id :: after ∧
            graph.statements id = front ++ statement :: back ∧
            earlier = graph.trace before ++ front := by
        intro front earlierEq restEq
        rcases ih restEq with ⟨before, id, after, front', back, blocksEq, statementsEq, frontEq⟩
        exact ⟨first :: before, id, after, front', back, by rw [blocksEq]; rfl, statementsEq,
          by rw [earlierEq, frontEq, trace_cons, List.append_assoc]⟩
      rw [trace_cons, List.append_eq_append_iff] at traceEq
      rcases traceEq with ⟨front, earlierEq, restEq⟩ | ⟨back, statementsEq, backEq⟩
      · exact inRest front earlierEq restEq
      · cases back with
        | nil => exact inRest [] (by rw [statementsEq, List.append_nil, List.append_nil]) backEq.symm
        | cons head back =>
            rcases List.cons.inj backEq with ⟨rfl, -⟩
            exact ⟨[], first, rest, earlier, back, rfl, statementsEq, rfl⟩

namespace Path

theorem source_mem {source target : BlockId} {blocks : List BlockId}
    (path : graph.Path source blocks target) : source ∈ blocks := by
  cases path <;> simp

theorem target_mem {source target : BlockId} {blocks : List BlockId}
    (path : graph.Path source blocks target) : target ∈ blocks := by
  induction path with
  | single id => simp
  | step _ _ ih => exact List.mem_cons_of_mem _ ih

/-- A path can be extended by an edge from its last block. -/
theorem extend {source last next : BlockId} {blocks : List BlockId}
    (path : graph.Path source blocks last) (edge : next ∈ graph.successors last) :
    graph.Path source (blocks ++ [next]) next := by
  induction path with
  | single id => exact .step edge (.single next)
  | step first _ ih => exact .step first (ih edge)

/-- A path that meets a block splits there. -/
theorem split {source target middle : BlockId} {before after : List BlockId}
    (path : graph.Path source (before ++ middle :: after) target) :
    graph.Path source (before ++ [middle]) middle ∧ graph.Path middle (middle :: after) target := by
  induction before generalizing source with
  | nil =>
      cases path with
      | single => exact ⟨.single _, .single _⟩
      | step edge rest => exact ⟨.single _, .step edge rest⟩
  | cons first before ih =>
      rw [List.cons_append] at path
      generalize tailEq : before ++ middle :: after = tail at path
      cases path with
      | single => simp at tailEq
      | step edge rest =>
          subst tailEq
          rcases ih rest with ⟨toMiddle, fromMiddle⟩
          exact ⟨.step edge toMiddle, fromMiddle⟩

/-- Two paths that meet form a path. -/
theorem join {source middle target : BlockId} {before after : List BlockId}
    (toMiddle : graph.Path source (before ++ [middle]) middle)
    (fromMiddle : graph.Path middle (middle :: after) target) :
    graph.Path source (before ++ middle :: after) target := by
  induction before generalizing source with
  | nil =>
      cases toMiddle with
      | single => exact fromMiddle
      | step edge rest => cases rest
  | cons first before ih =>
      rw [List.cons_append] at toMiddle
      generalize tailEq : before ++ [middle] = tail at toMiddle
      cases toMiddle with
      | single => simp at tailEq
      | step edge rest =>
          subst tailEq
          exact .step edge (ih rest)

/-- A path of more than one block comes to its last block over an edge. -/
theorem exists_last_edge {source target : BlockId} {before : List BlockId}
    (path : graph.Path source (before ++ [target]) target) (longer : before ≠ []) :
    ∃ blocks last, before = blocks ++ [last] ∧ graph.Path source (blocks ++ [last]) last ∧
      target ∈ graph.successors last := by
  rcases (List.eq_nil_or_concat' before).resolve_left longer with ⟨blocks, last, rfl⟩
  rw [List.append_assoc] at path
  rcases path.split with ⟨toLast, fromLast⟩
  cases fromLast with
  | step edge rest =>
      cases rest with
      | single => exact ⟨blocks, last, rfl, toLast, edge⟩
      | step _ later => cases later

/-- Control ends at a block without successors. -/
theorem eq_nil_of_successors_eq_nil {source target id : BlockId} {before after : List BlockId}
    (path : graph.Path source (before ++ id :: after) target) (noEdge : graph.successors id = []) :
    after = [] := by
  cases path.split.2 with
  | single => rfl
  | step edge _ =>
      rw [noEdge] at edge
      exact absurd edge List.not_mem_nil

theorem eq_append_target {source target : BlockId} {blocks : List BlockId}
    (path : graph.Path source blocks target) : ∃ before, blocks = before ++ [target] := by
  induction path with
  | single id => exact ⟨[], rfl⟩
  | step _ _ ih =>
      rcases ih with ⟨before, rfl⟩
      exact ⟨_ :: before, rfl⟩

theorem reflTransGen {source target : BlockId} {blocks : List BlockId}
    (path : graph.Path source blocks target) :
    Relation.ReflTransGen (Search.Steps graph.successors) source target := by
  induction path with
  | single id => exact .refl
  | step edge _ ih => exact .head edge ih

theorem exists_of_reflTransGen {source target : BlockId}
    (reaches : Relation.ReflTransGen (Search.Steps graph.successors) source target) :
    ∃ blocks, graph.Path source blocks target := by
  induction reaches with
  | refl => exact ⟨[source], .single source⟩
  | tail _ edge ih =>
      rcases ih with ⟨blocks, path⟩
      exact ⟨_, path.extend edge⟩

end Path

namespace WellFormed

theorem mem_reachable_iff (wellFormed : graph.WellFormed) {id : BlockId} :
    id ∈ graph.reachable ↔ ∃ blocks, graph.Path graph.entry blocks id := by
  have stays : ∀ source ∈ List.range graph.size, ∀ target ∈ graph.successors source,
      target ∈ List.range graph.size := by
    intro source _ target edge
    exact List.mem_range.2 (wellFormed.target_lt _ (mem_successors.1 edge))
  rw [reachable, Search.mem_reached_iff stays (by simp) (by simpa using wellFormed.entry_lt)]
  constructor
  · rintro ⟨source, sourceMem, reaches⟩
    rcases List.mem_singleton.1 sourceMem with rfl
    exact Path.exists_of_reflTransGen reaches
  · rintro ⟨blocks, path⟩
    exact ⟨graph.entry, by simp, path.reflTransGen⟩

theorem entry_mem_reachable (wellFormed : graph.WellFormed) : graph.entry ∈ graph.reachable :=
  wellFormed.mem_reachable_iff.2 ⟨_, .single _⟩

theorem mem_reachable_of_successor (wellFormed : graph.WellFormed) {source target : BlockId}
    (reached : source ∈ graph.reachable) (edge : target ∈ graph.successors source) :
    target ∈ graph.reachable := by
  rcases wellFormed.mem_reachable_iff.1 reached with ⟨blocks, path⟩
  exact wellFormed.mem_reachable_iff.2 ⟨_, path.extend edge⟩

/-- Every block on a path from a reachable block is reachable. -/
theorem mem_reachable_of_mem (wellFormed : graph.WellFormed) {source target id : BlockId}
    {blocks : List BlockId} (path : graph.Path source blocks target)
    (reached : source ∈ graph.reachable) (idMem : id ∈ blocks) : id ∈ graph.reachable := by
  induction path with
  | single => simpa using (List.mem_singleton.1 idMem) ▸ reached
  | step edge _ ih =>
      rcases List.mem_cons.1 idMem with rfl | later
      · exact reached
      · exact ih (wellFormed.mem_reachable_of_successor reached edge) later

theorem lt_size_of_mem_reachable (wellFormed : graph.WellFormed) {id : BlockId}
    (reached : id ∈ graph.reachable) : id < graph.size := by
  rcases wellFormed.mem_reachable_iff.1 reached with ⟨blocks, path⟩
  rcases path.eq_append_target with ⟨before, rfl⟩
  by_cases longer : before = []
  · subst longer
    cases path with
    | single => exact wellFormed.entry_lt
    | step _ rest => cases rest
  · rcases path.exists_last_edge longer with ⟨_, last, -, -, edge⟩
    exact wellFormed.target_lt _ (mem_successors.1 edge)

end WellFormed

/-- On some path from the entry a statement is met right after others. -/
def Reaches (graph : Graph) (earlier : List Node) (statement : Node) : Prop :=
  ∃ blocks last later, graph.Path graph.entry blocks last ∧
    graph.trace blocks = earlier ++ statement :: later

namespace Reaches

variable {earlier between : List Node} {statement target : Node}

theorem of_append (reaches : graph.Reaches (earlier ++ statement :: between) target) :
    graph.Reaches earlier statement := by
  rcases reaches with ⟨blocks, last, later, path, traceEq⟩
  exact ⟨blocks, last, between ++ target :: later, path, by simpa using traceEq⟩

theorem mem_reachableStatements (reaches : graph.Reaches earlier statement)
    (wellFormed : graph.WellFormed) : statement ∈ graph.reachableStatements := by
  rcases reaches with ⟨blocks, last, later, path, traceEq⟩
  have isMet : statement ∈ graph.trace blocks := by simp [traceEq]
  rcases List.mem_flatMap.1 isMet with ⟨block, onPath, isStatement⟩
  have isReachable := wellFormed.mem_reachable_of_mem path wellFormed.entry_mem_reachable onPath
  exact List.mem_flatMap.2 ⟨block, isReachable, isStatement⟩

end Reaches

end Graph

end FlowAnalysis
