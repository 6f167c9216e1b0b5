import FlowAnalysis.Proofs.ControlFlow.Nesting
import FlowAnalysis.Proofs.ControlFlow.Realization

/-!
# Where it is decided what is met

A piece of a program without jumps is entered at its front and left at its end: control passes it by
meeting the roots of its nesting and nothing that the piece does not place. So what control meets
for certain behind a branch is what it meets for certain behind the end of the branch, except for
what stands beneath the branch; and what stands right beneath a branch is met for certain on one
side of it, but can be avoided on the other. `Graph.Nests` collects what this says about one piece,
with a rule for each way to put pieces together.
-/

namespace FlowAnalysis

namespace Graph

variable {graph : Graph} {forest left right : Forest Node} {start middle stop : Point}
  {trace : List Node} {node : Node}

/-- Control can end from a point after meeting some statements. -/
def Ahead (graph : Graph) (point : Point) (trace : List Node) : Prop :=
  ∃ moves raised, graph.Finishes moves point trace raised

/-- Control that is at a point cannot end without meeting a statement. -/
def Unavoidable (graph : Graph) (point : Point) (node : Node) : Prop :=
  ∀ trace, graph.Ahead point trace → node ∈ trace

/-- Control that is at a point can end without meeting any of some statements. -/
def Avoids (graph : Graph) (point : Point) (nodes : List Node) : Prop :=
  ∃ trace, graph.Ahead point trace ∧ ∀ node ∈ trace, node ∉ nodes

theorem Ahead.of_at (ahead : graph.Ahead start trace) (next : graph.At start node) :
    ∃ rest, trace = node :: rest ∧ graph.Ahead ⟨start.block, start.offset + 1⟩ rest := by
  rcases ahead with ⟨moves, raised, finishes⟩
  rcases finishes.of_at next with ⟨left, rest, -, rfl, goesOn⟩
  exact ⟨rest, rfl, left, raised, goesOn⟩

theorem Ahead.meet (next : graph.At start node)
    (ahead : graph.Ahead ⟨start.block, start.offset + 1⟩ trace) :
    graph.Ahead start (node :: trace) := by
  rcases ahead with ⟨moves, raised, finishes⟩
  exact ⟨moves + 1, raised, .meet next finishes⟩

theorem Ahead.of_endsIn {target : BlockId} (ahead : graph.Ahead start trace)
    (ends : graph.EndsIn start [target]) : graph.Ahead ⟨target, 0⟩ trace := by
  rcases ahead with ⟨moves, raised, finishes⟩
  rcases finishes.of_endsIn ends (by simp) with ⟨target', member, left, -, goesOn⟩
  rcases List.mem_singleton.1 member with rfl
  exact ⟨left, raised, goesOn⟩

theorem Ahead.cross {target : BlockId} (ends : graph.EndsIn start [target])
    (ahead : graph.Ahead ⟨target, 0⟩ trace) : graph.Ahead start trace := by
  rcases ahead with ⟨moves, raised, finishes⟩
  exact ⟨moves + 1, raised, .cross ends (by simp) finishes⟩

theorem Ahead.of_leads {block : BlockId} {targets : List BlockId}
    (ahead : graph.Ahead ⟨block, 0⟩ trace) (leads : graph.Leads block targets)
    (someTarget : targets ≠ []) :
    ∃ target ∈ targets, ∃ rest, trace = graph.statements block ++ rest ∧
      graph.Ahead ⟨target, 0⟩ rest := by
  rcases ahead with ⟨moves, raised, finishes⟩
  rcases finishes.of_leads leads someTarget with ⟨target, member, left, rest, -, rfl, goesOn⟩
  exact ⟨target, member, rest, rfl, left, raised, goesOn⟩

theorem Ahead.to_leads {block target : BlockId} {targets : List BlockId}
    (leads : graph.Leads block targets) (member : target ∈ targets)
    (ahead : graph.Ahead ⟨target, 0⟩ trace) :
    graph.Ahead ⟨block, 0⟩ (graph.statements block ++ trace) := by
  rcases ahead with ⟨moves, raised, finishes⟩
  rcases Finishes.to_leads leads member finishes with ⟨moves', arrives⟩
  exact ⟨moves', raised, arrives⟩

/-! ### Passing a piece -/

/-- Control passes from a point to another one by meeting the roots of a forest, and nothing that is
not in the forest. -/
structure Passes (graph : Graph) (forest : Forest Node) (start stop : Point) : Prop where
  ahead : ∀ trace, graph.Ahead start trace → ∃ before after, trace = before ++ after ∧
    graph.Ahead stop after ∧ before ⊆ forest.labels ∧ forest.roots ⊆ before
  exists_before : ∃ before, before ⊆ forest.labels ∧
    ∀ after, graph.Ahead stop after → graph.Ahead start (before ++ after)

namespace Passes

theorem unavoidable_of_root (passes : graph.Passes forest start stop)
    (isRoot : node ∈ forest.roots) : graph.Unavoidable start node := by
  intro trace ahead
  rcases passes.ahead trace ahead with ⟨before, after, rfl, -, -, met⟩
  exact List.mem_append_left _ (met isRoot)

theorem unavoidable (passes : graph.Passes forest start stop)
    (later : graph.Unavoidable stop node) : graph.Unavoidable start node := by
  intro trace ahead
  rcases passes.ahead trace ahead with ⟨before, after, rfl, ahead, -, -⟩
  exact List.mem_append_right _ (later after ahead)

/-- What is not placed between two points can only be met behind them. -/
theorem unavoidable_of_not_mem (passes : graph.Passes forest start stop)
    (elsewhere : node ∉ forest.labels) (unavoidable : graph.Unavoidable start node) :
    graph.Unavoidable stop node := by
  rcases passes.exists_before with ⟨before, inside, goesOn⟩
  intro trace ahead
  rcases List.mem_append.1 (unavoidable _ (goesOn trace ahead)) with met | met
  · exact absurd (inside met) elsewhere
  · exact met

theorem avoids (passes : graph.Passes forest start stop) {nodes : List Node}
    (apart : ∀ node ∈ forest.labels, node ∉ nodes) (avoids : graph.Avoids stop nodes) :
    graph.Avoids start nodes := by
  rcases passes.exists_before with ⟨before, inside, goesOn⟩
  rcases avoids with ⟨trace, ahead, avoided⟩
  refine ⟨before ++ trace, goesOn trace ahead, ?_⟩
  intro node member
  rcases List.mem_append.1 member with met | met
  · exact apart node (inside met)
  · exact avoided node met

theorem skip : graph.Passes .nil start start where
  ahead trace ahead := ⟨[], trace, rfl, ahead, by simp, by simp [Forest.roots]⟩
  exists_before := ⟨[], by simp, fun _ ahead => ahead⟩

theorem append_subset_append {before before' labels labels' : List Node}
    (inside : before ⊆ labels) (inside' : before' ⊆ labels') :
    before ++ before' ⊆ labels ++ labels' :=
  List.append_subset.2 ⟨List.Subset.trans inside (List.subset_append_left _ _),
    List.Subset.trans inside' (List.subset_append_right _ _)⟩

theorem append (first : graph.Passes left start middle) (second : graph.Passes right middle stop) :
    graph.Passes (left ++ right) start stop where
  ahead := by
    intro trace ahead
    rcases first.ahead trace ahead with ⟨before, rest, rfl, between, inside, met⟩
    rcases second.ahead rest between with ⟨before', after, rfl, behind, inside', met'⟩
    refine ⟨before ++ before', after, by simp, behind, ?_, ?_⟩
    · rw [Forest.labels_append]
      exact append_subset_append inside inside'
    · rw [Forest.roots_append]
      exact append_subset_append met met'
  exists_before := by
    rcases first.exists_before with ⟨before, inside, goesOn⟩
    rcases second.exists_before with ⟨before', inside', goesOn'⟩
    refine ⟨before ++ before', ?_, ?_⟩
    · rw [Forest.labels_append]
      exact append_subset_append inside inside'
    · intro after ahead
      rw [List.append_assoc]
      exact goesOn _ (goesOn' after ahead)

theorem place (next : graph.At start node) :
    graph.Passes (.tree node .nil .nil) start ⟨start.block, start.offset + 1⟩ where
  ahead := by
    intro trace ahead
    rcases ahead.of_at next with ⟨rest, rfl, goesOn⟩
    exact ⟨[node], rest, rfl, goesOn, by simp [Forest.labels], by simp [Forest.roots]⟩
  exists_before := ⟨[node], by simp [Forest.labels], fun _ ahead => ahead.meet next⟩

theorem cross {target : BlockId} (ends : graph.EndsIn start [target]) :
    graph.Passes .nil start ⟨target, 0⟩ where
  ahead trace ahead := ⟨[], trace, rfl, ahead.of_endsIn ends, by simp, by simp [Forest.roots]⟩
  exists_before := ⟨[], by simp, fun _ ahead => ahead.cross ends⟩

theorem visit {block target : BlockId} (leads : graph.Leads block [target]) :
    graph.Passes (.leaves (graph.statements block)) ⟨block, 0⟩ ⟨target, 0⟩ where
  ahead := by
    intro trace ahead
    rcases ahead.of_leads leads (by simp) with ⟨target', member, rest, rfl, goesOn⟩
    rcases List.mem_singleton.1 member with rfl
    exact ⟨_, rest, rfl, goesOn, by simp, by simp⟩
  exists_before := ⟨graph.statements block, by simp, fun _ ahead => ahead.to_leads leads (by simp)⟩

theorem fork {block leftEntry rightEntry : BlockId} (statements : graph.statements block = [node])
    (leads : graph.Leads block [leftEntry, rightEntry])
    (passesLeft : graph.Passes left ⟨leftEntry, 0⟩ stop)
    (passesRight : graph.Passes right ⟨rightEntry, 0⟩ stop) :
    graph.Passes (.tree node (left ++ right) .nil) ⟨block, 0⟩ stop where
  ahead := by
    intro trace ahead
    rcases ahead.of_leads leads (by simp) with ⟨target, member, rest, rfl, goesOn⟩
    rw [statements]
    rcases List.mem_pair.1 member with rfl | rfl
    · rcases passesLeft.ahead rest goesOn with ⟨before, after, rfl, behind, inside, -⟩
      refine ⟨node :: before, after, rfl, behind, ?_, by simp [Forest.roots]⟩
      simp only [Forest.labels, Forest.labels_append, List.append_nil]
      exact List.cons_subset_cons _ (List.Subset.trans inside (List.subset_append_left _ _))
    · rcases passesRight.ahead rest goesOn with ⟨before, after, rfl, behind, inside, -⟩
      refine ⟨node :: before, after, rfl, behind, ?_, by simp [Forest.roots]⟩
      simp only [Forest.labels, Forest.labels_append, List.append_nil]
      exact List.cons_subset_cons _ (List.Subset.trans inside (List.subset_append_right _ _))
  exists_before := by
    rcases passesLeft.exists_before with ⟨before, inside, goesOn⟩
    refine ⟨node :: before, ?_, ?_⟩
    · simp only [Forest.labels, Forest.labels_append, List.append_nil]
      exact List.cons_subset_cons _ (List.Subset.trans inside (List.subset_append_left _ _))
    · intro after ahead
      have entered := (goesOn after ahead).to_leads leads (by simp)
      rwa [statements] at entered

/-- The rounds of a loop get shorter until the loop is left. -/
theorem rounds {head bodyEntry elseEntry : BlockId} (statements : graph.statements head = [node])
    (leads : graph.Leads head [bodyEntry, elseEntry])
    (passesBody : graph.Passes left ⟨bodyEntry, 0⟩ ⟨head, 0⟩)
    (passesElse : graph.Passes right ⟨elseEntry, 0⟩ stop) :
    graph.Passes (.tree node left right) ⟨head, 0⟩ stop where
  ahead := by
    intro trace ahead
    induction length : trace.length using Nat.strongRecOn generalizing trace with
    | ind length ih =>
        rcases ahead.of_leads leads (by simp) with ⟨target, member, rest, rfl, goesOn⟩
        rw [statements] at length ⊢
        rcases List.mem_pair.1 member with rfl | rfl
        · rcases passesBody.ahead rest goesOn with ⟨round, rest, rfl, again, inRound, -⟩
          simp only [List.length_append, List.length_singleton] at length
          rcases ih _ (by omega) rest again rfl with ⟨before, after, rfl, behind, inside, met⟩
          refine ⟨node :: (round ++ before), after, by simp, behind, ?_, ?_⟩
          · apply List.cons_subset.2
            refine ⟨by simp [Forest.labels], List.append_subset.2 ⟨?_, inside⟩⟩
            intro other member
            simp [Forest.labels, inRound member]
          · exact List.Subset.trans met fun other member => by simp [member]
        · rcases passesElse.ahead rest goesOn with ⟨before, after, rfl, behind, inside, met⟩
          refine ⟨node :: before, after, rfl, behind, ?_, List.cons_subset_cons _ met⟩
          exact List.cons_subset_cons _ (List.Subset.trans inside (List.subset_append_right _ _))
  exists_before := by
    rcases passesElse.exists_before with ⟨before, inside, goesOn⟩
    refine ⟨node :: before, ?_, ?_⟩
    · exact List.cons_subset_cons _ (List.Subset.trans inside (List.subset_append_right _ _))
    · intro after ahead
      have entered := (goesOn after ahead).to_leads leads (by simp)
      rwa [statements] at entered

end Passes

/-! ### What is decided at a block -/

/-- What becomes certain at a block stands beneath its only statement. -/
def Governs (graph : Graph) (forest : Forest Node) (id : BlockId) : Prop :=
  ∀ successor ∈ graph.successors id, ∀ node, graph.Unavoidable ⟨successor, 0⟩ node →
    ¬graph.Unavoidable ⟨id, 0⟩ node →
      ∃ branch, graph.statements id = [branch] ∧ forest.Above branch node

/-- Up to a block, what becomes certain stands beneath what decides it. -/
def Governed (graph : Graph) (forest : Forest Node) (source target : BlockId) : Prop :=
  ∀ blocks id, graph.Path source blocks id → graph.Governs forest id ∨ target ∈ blocks

/-- At the block of a statement it becomes certain that another one is met. -/
def Decides (graph : Graph) (branch node : Node) : Prop :=
  ∃ id ∈ graph.reachable, graph.statements id = [branch] ∧
    (∃ successor ∈ graph.successors id, graph.Unavoidable ⟨successor, 0⟩ node) ∧
      ¬graph.Unavoidable ⟨id, 0⟩ node

variable {block next target : BlockId}

theorem Governs.mono {forest' : Forest Node} (above : ∀ branch node, forest.Above branch node →
    forest'.Above branch node) (governs : graph.Governs forest block) :
    graph.Governs forest' block := by
  intro successor edge node certain uncertain
  rcases governs successor edge node certain uncertain with ⟨branch, statements, isAbove⟩
  exact ⟨branch, statements, above branch node isAbove⟩

/-- Nothing is decided where there is only one way on. -/
theorem governs_of_leads (leads : graph.Leads block [next]) : graph.Governs forest block := by
  intro successor edge node certain uncertain
  rcases List.mem_singleton.1 ((leads successor).1 edge) with rfl
  refine absurd ?_ uncertain
  intro trace ahead
  rcases ahead.of_leads leads (by simp) with ⟨target, member, rest, rfl, goesOn⟩
  rcases List.mem_singleton.1 member with rfl
  exact List.mem_append_right _ (certain rest goesOn)

theorem governs_fork {leftEntry rightEntry : BlockId} (statements : graph.statements block = [node])
    (leads : graph.Leads block [leftEntry, rightEntry])
    (passesLeft : graph.Passes left ⟨leftEntry, 0⟩ stop)
    (passesRight : graph.Passes right ⟨rightEntry, 0⟩ stop) :
    graph.Governs (.tree node (left ++ right) .nil) block := by
  intro successor edge other certain uncertain
  refine ⟨node, statements, .inl ⟨rfl, ?_⟩⟩
  by_contra elsewhere
  simp only [Forest.labels_append, List.mem_append, not_or] at elsewhere
  have behind : graph.Unavoidable stop other := by
    rcases List.mem_pair.1 ((leads successor).1 edge) with rfl | rfl
    · exact passesLeft.unavoidable_of_not_mem elsewhere.1 certain
    · exact passesRight.unavoidable_of_not_mem elsewhere.2 certain
  apply uncertain
  intro trace ahead
  rcases ahead.of_leads leads (by simp) with ⟨target, member, rest, rfl, goesOn⟩
  rcases List.mem_pair.1 member with rfl | rfl
  · exact List.mem_append_right _ (passesLeft.unavoidable behind rest goesOn)
  · exact List.mem_append_right _ (passesRight.unavoidable behind rest goesOn)

/-- A loop is left through its head, so what is certain behind it is certain at the head. -/
theorem governs_rounds {bodyEntry elseEntry : BlockId}
    (statements : graph.statements block = [node]) (leads : graph.Leads block [bodyEntry, elseEntry])
    (passesBody : graph.Passes left ⟨bodyEntry, 0⟩ ⟨block, 0⟩) :
    graph.Governs (.tree node left right) block := by
  intro successor edge other certain uncertain
  refine ⟨node, statements, .inl ⟨rfl, ?_⟩⟩
  by_contra elsewhere
  apply uncertain
  rcases List.mem_pair.1 ((leads successor).1 edge) with rfl | rfl
  · exact passesBody.unavoidable_of_not_mem elsewhere certain
  · intro trace ahead
    induction length : trace.length using Nat.strongRecOn generalizing trace with
    | ind length ih =>
        rcases ahead.of_leads leads (by simp) with ⟨target, member, rest, rfl, goesOn⟩
        rw [statements] at length ⊢
        rcases List.mem_pair.1 member with rfl | rfl
        · rcases passesBody.ahead rest goesOn with ⟨round, rest, rfl, again, -, -⟩
          simp only [List.length_append, List.length_singleton] at length
          have later := ih _ (by omega) rest again rfl
          simp [later]
        · exact List.mem_append_right _ (certain rest goesOn)

namespace Governed

theorem skip : graph.Governed forest block block :=
  fun _ _ path => .inr path.source_mem

theorem mono {forest' : Forest Node} (above : ∀ branch node, forest.Above branch node →
    forest'.Above branch node) (governed : graph.Governed forest block target) :
    graph.Governed forest' block target :=
  fun blocks id path => (governed blocks id path).imp_left fun governs => governs.mono above

theorem trans (first : graph.Governed forest block next)
    (second : graph.Governed forest next target) : graph.Governed forest block target := by
  intro blocks id path
  rcases first blocks id path with governs | met
  · exact .inl governs
  · rcases List.append_of_mem met with ⟨before, after, rfl⟩
    exact (second _ id path.split.2).imp_right fun later => List.mem_append_right _ later

/-- What is governed from each block behind a block is governed from there. -/
theorem fork {targets : List BlockId} (leads : graph.Leads block targets)
    (governs : graph.Governs forest block)
    (governed : ∀ next ∈ targets, graph.Governed forest next target) :
    graph.Governed forest block target := by
  intro blocks id path
  cases path with
  | single => exact .inl governs
  | @step _ next _ rest edge path =>
      exact (governed next ((leads next).1 edge) _ id path).imp_right fun later =>
        List.mem_cons_of_mem _ later

theorem cross (leads : graph.Leads block [target]) : graph.Governed forest block target := by
  apply fork leads (governs_of_leads leads)
  intro next member
  rw [List.mem_singleton.1 member]
  exact skip

/-- The rounds of a loop on a path are finitely many. -/
theorem rounds {bodyEntry elseEntry : BlockId} (leads : graph.Leads block [bodyEntry, elseEntry])
    (governs : graph.Governs forest block) (body : graph.Governed forest bodyEntry block)
    (orelse : graph.Governed forest elseEntry target) : graph.Governed forest block target := by
  intro blocks id path
  induction length : blocks.length using Nat.strongRecOn generalizing blocks with
  | ind length ih =>
      cases path with
      | single => exact .inl governs
      | @step _ next _ rest edge path =>
          rcases List.mem_pair.1 ((leads next).1 edge) with rfl | rfl
          · rcases body rest id path with governs | again
            · exact .inl governs
            · rcases List.append_of_mem again with ⟨before, after, rfl⟩
              simp only [List.length_cons, List.length_append] at length
              have shorter := ih (after.length + 1) (by omega) _ path.split.2 rfl
              exact shorter.imp_right fun later =>
                List.mem_cons_of_mem _ (List.mem_append_right _ later)
          · exact (orelse rest id path).imp_right fun later => List.mem_cons_of_mem _ later

end Governed

/-- What is certain on one way on from a block, but can be avoided on another, is decided there. -/
theorem decides_of_avoids {other : BlockId} {dependent : Node} {nodes : List Node}
    (reached : block ∈ graph.reachable) (statements : graph.statements block = [node])
    {targets : List BlockId} (leads : graph.Leads block targets) (isNext : next ∈ targets)
    (isOther : other ∈ targets) (certain : graph.Unavoidable ⟨next, 0⟩ dependent)
    (avoids : graph.Avoids ⟨other, 0⟩ nodes) (avoided : dependent ∈ nodes)
    (differs : dependent ≠ node) : graph.Decides node dependent := by
  refine ⟨block, reached, statements, ⟨next, (leads next).2 isNext, certain⟩, ?_⟩
  intro unavoidable
  rcases avoids with ⟨trace, ahead, avoidsAll⟩
  have met := unavoidable _ (ahead.to_leads leads isOther)
  rw [statements] at met
  rcases List.mem_cons.1 met with same | later
  · exact differs same
  · exact avoidsAll dependent later avoided

theorem Avoids.mono {nodes nodes' : List Node} (subset : nodes' ⊆ nodes)
    (avoids : graph.Avoids start nodes) : graph.Avoids start nodes' := by
  rcases avoids with ⟨trace, ahead, avoided⟩
  exact ⟨trace, ahead, fun node member isNode => avoided node member (subset isNode)⟩

/-! ### Pieces of a program -/

/-- How a piece of a program between two points decides what is met. -/
structure Nests (graph : Graph) (forest : Forest Node) (start stop : Point) : Prop where
  passes : graph.Passes forest start stop
  governed : graph.Governed forest start.block stop.block
  reaches : start.block ∈ graph.reachable → stop.block ∈ graph.reachable
  decides : start.block ∈ graph.reachable → forest.labels.Nodup →
    graph.Avoids stop forest.labels → ∀ branch node, forest.Parent branch node →
      graph.Decides branch node

namespace Nests

theorem skip : graph.Nests .nil start start where
  passes := .skip
  governed := .skip
  reaches := id
  decides _ _ _ _ _ parent := parent.elim

theorem place (next : graph.At start node) :
    graph.Nests (.tree node .nil .nil) start ⟨start.block, start.offset + 1⟩ where
  passes := .place next
  governed := .skip
  reaches := id
  decides _ _ _ _ _ parent := by simp [Forest.Parent, Forest.roots] at parent

theorem append (first : graph.Nests left start middle) (second : graph.Nests right middle stop) :
    graph.Nests (left ++ right) start stop where
  passes := first.passes.append second.passes
  governed := by
    refine .trans (first.governed.mono ?_) (second.governed.mono ?_)
    · exact fun _ _ above => Forest.above_append.2 (.inl above)
    · exact fun _ _ above => Forest.above_append.2 (.inr above)
  reaches reached := second.reaches (first.reaches reached)
  decides := by
    intro reached distinct avoids branch node parent
    rw [Forest.labels_append] at distinct avoids
    rcases List.nodup_append.1 distinct with ⟨leftDistinct, rightDistinct, apart⟩
    have avoidsLeft := avoids.mono (List.subset_append_left _ _)
    have avoidsRight := avoids.mono (List.subset_append_right _ _)
    rcases Forest.parent_append.1 parent with inLeft | inRight
    · refine first.decides reached leftDistinct (second.passes.avoids ?_ avoidsLeft) _ _ inLeft
      exact fun other inRight inLeft => apart other inLeft other inRight rfl
    · exact second.decides (first.reaches reached) rightDistinct avoidsRight _ _ inRight

variable (wellFormed : graph.WellFormed)

include wellFormed

theorem cross (ends : graph.EndsIn start [target]) : graph.Nests .nil start ⟨target, 0⟩ where
  passes := .cross ends
  governed := .cross ends.2
  reaches reached := wellFormed.mem_reachable_of_successor reached ((ends.2 target).2 (by simp))
  decides _ _ _ _ _ parent := parent.elim

theorem enter (ends : graph.EndsIn start [target]) (nests : graph.Nests forest ⟨target, 0⟩ stop) :
    graph.Nests forest start stop :=
  (cross wellFormed ends).append nests

theorem detour {body : Point → Point → Prop} (way : graph.Detour body block target)
    (nests : ∀ exit, body ⟨block, 0⟩ exit → graph.Nests forest ⟨block, 0⟩ exit) :
    graph.Nests forest ⟨block, 0⟩ ⟨target, 0⟩ := by
  rcases way with ⟨exit, laid, ends⟩
  have joins := (nests exit laid).append (cross wellFormed ends)
  rwa [Forest.append_nil] at joins

theorem visit (leads : graph.Leads block [target]) :
    graph.Nests (.leaves (graph.statements block)) ⟨block, 0⟩ ⟨target, 0⟩ where
  passes := .visit leads
  governed := .cross leads
  reaches reached := wellFormed.mem_reachable_of_successor reached ((leads target).2 (by simp))
  decides _ _ _ _ _ parent := absurd parent (Forest.not_parent_leaves _)

theorem fork {leftEntry rightEntry : BlockId} (statements : graph.statements block = [node])
    (leads : graph.Leads block [leftEntry, rightEntry])
    (nestsLeft : graph.Nests left ⟨leftEntry, 0⟩ stop)
    (nestsRight : graph.Nests right ⟨rightEntry, 0⟩ stop) :
    graph.Nests (.tree node (left ++ right) .nil) ⟨block, 0⟩ stop where
  passes := .fork statements leads nestsLeft.passes nestsRight.passes
  governed := by
    refine .fork leads (governs_fork statements leads nestsLeft.passes nestsRight.passes) ?_
    intro next member
    rcases List.mem_pair.1 member with rfl | rfl
    · exact nestsLeft.governed.mono fun _ _ above =>
        .inr (.inl (Forest.above_append.2 (.inl above)))
    · exact nestsRight.governed.mono fun _ _ above =>
        .inr (.inl (Forest.above_append.2 (.inr above)))
  reaches reached := nestsLeft.reaches
    (wellFormed.mem_reachable_of_successor reached ((leads leftEntry).2 (by simp)))
  decides := by
    intro reached distinct avoids branch dependent parent
    have leftReached := wellFormed.mem_reachable_of_successor reached
      ((leads leftEntry).2 (by simp))
    have rightReached := wellFormed.mem_reachable_of_successor reached
      ((leads rightEntry).2 (by simp))
    simp only [Forest.labels, Forest.labels_append, List.append_nil, List.nodup_cons,
      List.mem_append, not_or] at distinct avoids
    rcases distinct with ⟨⟨notLeft, notRight⟩, distinct⟩
    rcases List.nodup_append.1 distinct with ⟨leftDistinct, rightDistinct, apart⟩
    have avoidsBoth := avoids.mono (List.subset_cons_self _ _)
    have avoidsLeft := avoidsBoth.mono (List.subset_append_left _ _)
    have avoidsRight := avoidsBoth.mono (List.subset_append_right _ _)
    rcases parent with ⟨rfl, isRoot⟩ | parent | impossible
    · rw [Forest.roots_append] at isRoot
      rcases List.mem_append.1 isRoot with isRoot | isRoot
      · have member := left.roots_subset_labels isRoot
        refine decides_of_avoids reached statements leads (List.mem_cons_self) (by simp)
          (nestsLeft.passes.unavoidable_of_root isRoot)
          (nestsRight.passes.avoids ?_ avoidsLeft) member ?_
        · exact fun other inRight inLeft => apart other inLeft other inRight rfl
        · exact fun same => notLeft (same ▸ member)
      · have member := right.roots_subset_labels isRoot
        refine decides_of_avoids reached statements leads (by simp) (List.mem_cons_self)
          (nestsRight.passes.unavoidable_of_root isRoot)
          (nestsLeft.passes.avoids ?_ avoidsRight) member ?_
        · exact fun other inLeft inRight => apart other inLeft other inRight rfl
        · exact fun same => notRight (same ▸ member)
    · rcases Forest.parent_append.1 parent with inLeft | inRight
      · exact nestsLeft.decides leftReached leftDistinct avoidsLeft _ _ inLeft
      · exact nestsRight.decides rightReached rightDistinct avoidsRight _ _ inRight
    · exact impossible.elim

theorem rounds {bodyEntry elseEntry : BlockId} (statements : graph.statements block = [node])
    (leads : graph.Leads block [bodyEntry, elseEntry])
    (nestsBody : graph.Nests left ⟨bodyEntry, 0⟩ ⟨block, 0⟩)
    (nestsElse : graph.Nests right ⟨elseEntry, 0⟩ stop) :
    graph.Nests (.tree node left right) ⟨block, 0⟩ stop where
  passes := .rounds statements leads nestsBody.passes nestsElse.passes
  governed := by
    refine .rounds leads (governs_rounds statements leads nestsBody.passes)
      (nestsBody.governed.mono ?_) (nestsElse.governed.mono ?_)
    · exact fun _ _ above => .inr (.inl above)
    · exact fun _ _ above => .inr (.inr above)
  reaches reached := nestsElse.reaches
    (wellFormed.mem_reachable_of_successor reached ((leads elseEntry).2 (by simp)))
  decides := by
    intro reached distinct avoids branch dependent parent
    have bodyReached := wellFormed.mem_reachable_of_successor reached
      ((leads bodyEntry).2 (by simp))
    have elseReached := wellFormed.mem_reachable_of_successor reached
      ((leads elseEntry).2 (by simp))
    simp only [Forest.labels, List.nodup_cons, List.mem_append, not_or] at distinct avoids
    rcases distinct with ⟨⟨notBody, -⟩, distinct⟩
    rcases List.nodup_append.1 distinct with ⟨bodyDistinct, elseDistinct, apart⟩
    have avoidsBoth := avoids.mono (List.subset_cons_self _ _)
    have avoidsElse := avoidsBoth.mono (List.subset_append_right _ _)
    have elseAvoidsBody : graph.Avoids ⟨elseEntry, 0⟩ left.labels := by
      refine nestsElse.passes.avoids ?_ (avoidsBoth.mono (List.subset_append_left _ _))
      exact fun other inElse inBody => apart other inBody other inElse rfl
    rcases parent with ⟨rfl, isRoot⟩ | parent | parent
    · have member := left.roots_subset_labels isRoot
      refine decides_of_avoids reached statements leads (List.mem_cons_self) (by simp)
        (nestsBody.passes.unavoidable_of_root isRoot) elseAvoidsBody member ?_
      exact fun same => notBody (same ▸ member)
    · -- The next round need not come.
      rcases elseAvoidsBody with ⟨trace, ahead, avoided⟩
      have entered := ahead.to_leads leads (by simp)
      rw [statements] at entered
      refine nestsBody.decides bodyReached bodyDistinct ⟨_, entered, ?_⟩ _ _ parent
      intro other member
      rcases List.mem_cons.1 member with rfl | later
      · exact notBody
      · exact avoided other later
    · exact nestsElse.decides elseReached elseDistinct avoidsElse _ _ parent

end Nests

end Graph

namespace Command

open FlowAnalysis.Graph

variable {graph : Graph}

mutual

/-- A command without jumps nests where it lies. -/
theorem LaidOut.nests (wellFormed : graph.WellFormed) : (command : Command) →
    FallsThrough command → {around : Surroundings} → {start stop : Point} →
    LaidOut graph around command start stop → graph.Nests (nesting command) start stop
  | .place statement, _, _, _, _, ⟨next, stopEq⟩ => by
      subst stopEq
      exact .place next
  | .branch cond body rest, ⟨bodyFalls, restFalls⟩, _, _, ⟨_, _⟩,
      ⟨condBlock, bodyEntry, restEntry, ends, statements, leads, bodyLaid, restLaid, rfl⟩ => by
      have bodyNests := Nests.detour wellFormed bodyLaid fun _ =>
        AllLaidOut.nests wellFormed body bodyFalls
      have restNests := AlternativesLaidOut.nests wellFormed rest restFalls restLaid
      exact .enter wellFormed ends (.fork wellFormed statements leads bodyNests restNests)
  | .loop _ head bound body orelse, ⟨bodyFalls, elseFalls⟩, _, _, ⟨_, _⟩,
      ⟨headBlock, bodyEntry, elseEntry, ends, statements, leads, bodyLaid, elseLaid, rfl⟩ => by
      have bodyNests := Nests.detour wellFormed bodyLaid fun _ =>
        AllLaidOut.nests wellFormed body bodyFalls
      refine .enter wellFormed ends (.rounds wellFormed statements leads bodyNests ?_)
      rw [OptionalDetour] at elseLaid
      split at elseLaid
      · next empty =>
          rw [List.isEmpty_iff.1 empty, elseLaid]
          exact .skip
      · exact .detour wellFormed elseLaid fun _ => AllLaidOut.nests wellFormed orelse elseFalls
  | .bracket bindings body, bodyFalls, _, _, _,
      ⟨bindingBlock, bodyEntry, ends, statements, leads, bodyLaid⟩ => by
      have binds := Nests.visit wellFormed leads
      rw [statements] at binds
      have bodyNests := AllLaidOut.nests wellFormed body bodyFalls bodyLaid
      exact .enter wellFormed ends (binds.append bodyNests)

theorem AllLaidOut.nests (wellFormed : graph.WellFormed) : (commands : List Command) →
    AllFallThrough commands → {around : Surroundings} → {start stop : Point} →
    AllLaidOut graph around commands start stop → graph.Nests (nestingAll commands) start stop
  | [], _, _, _, _, stopEq => by
      rw [AllLaidOut] at stopEq
      subst stopEq
      exact .skip
  | command :: rest, ⟨falls, restFalls⟩, _, _, _, ⟨_, laid, restLaid⟩ =>
      (LaidOut.nests wellFormed command falls laid).append
        (AllLaidOut.nests wellFormed rest restFalls restLaid)

theorem AlternativesLaidOut.nests (wellFormed : graph.WellFormed) : (rest : Alternatives) →
    AlternativesFallThrough rest → {around : Surroundings} → {entry join : BlockId} →
    AlternativesLaidOut graph around rest entry join →
      graph.Nests (nestingAlternatives rest) ⟨entry, 0⟩ ⟨join, 0⟩
  | .none, _, _, _, _, entryEq => by
      rw [AlternativesLaidOut] at entryEq
      subst entryEq
      exact .skip
  | .further cond body rest, ⟨bodyFalls, restFalls⟩, _, _, _,
      ⟨bodyEntry, restEntry, statements, leads, bodyLaid, restLaid⟩ => by
      have bodyNests := Nests.detour wellFormed bodyLaid fun _ =>
        AllLaidOut.nests wellFormed body bodyFalls
      have restNests := AlternativesLaidOut.nests wellFormed rest restFalls restLaid
      exact .fork wellFormed statements leads bodyNests restNests
  | .otherwise header body, bodyFalls, _, _, _, ⟨bodyEntry, statements, leads, bodyLaid⟩ => by
      have headed := Nests.visit wellFormed leads
      rw [statements] at headed
      have bodyNests := Nests.detour wellFormed bodyLaid fun _ =>
        AllLaidOut.nests wellFormed body bodyFalls
      exact headed.append bodyNests

end

end Command

end FlowAnalysis
