import FlowAnalysis.Proofs.ControlFlow.Deciding
import FlowAnalysis.Proofs.ControlFlow.Dependence
import FlowAnalysis.Proofs.ControlFlow.Ending
import FlowAnalysis.Proofs.ControlFlow.Placement
import FlowAnalysis.Proofs.ControlFlow.Renaming

/-!
# Without jumps, control dependence is lexical nesting

In a program without jumps a statement depends on another one, directly or along a chain, exactly if
it stands beneath the other one: in the body or a later part of a conditional, or in the body of a
loop. Statements are told apart by the points at which they are placed, as a program may contain the
same statement twice.
-/

namespace FlowAnalysis

namespace Graph

variable {graph : Graph} {program : List Command} {node : Node} {block : BlockId}

/-! ### Points of a graph -/

/-- The statement that follows a point in its block. -/
def node? (graph : Graph) (point : Point) : Option Node :=
  (graph.statements point.block)[point.offset]?

/-- The points of a block that are followed by a statement. -/
def points (graph : Graph) (id : BlockId) : List Point :=
  (List.range (graph.statements id).length).map (Point.mk id)

/-- The pairs of a point of a branching block and a point that depends on it. -/
def controlPoints (graph : Graph) : Except Failure (List (Point × Point)) := do
  let dependencies ← graph.controlDependencies
  return dependencies.flatMap fun (branch, dependent) =>
    (graph.points branch).flatMap fun control =>
      (graph.points dependent).map fun point => (control, point)

theorem mem_points {point : Point} {id : BlockId} :
    point ∈ graph.points id ↔ point.block = id ∧ ∃ node, graph.At point node := by
  rcases point with ⟨block, offset⟩
  simp only [points, List.mem_map, List.mem_range, Point.mk.injEq, At]
  constructor
  · rintro ⟨_, small, rfl, rfl⟩
    exact ⟨rfl, _, List.getElem?_eq_getElem small⟩
  · rintro ⟨rfl, node, next⟩
    exact ⟨offset, (List.getElem?_eq_some_iff.1 next).1, rfl, rfl⟩

theorem exists_at_of_mem {id : BlockId} (member : node ∈ graph.statements id) :
    ∃ offset, graph.At ⟨id, offset⟩ node :=
  List.mem_iff_getElem?.1 member

theorem At.mem {point : Point} (next : graph.At point node) : node ∈ graph.statements point.block :=
  List.mem_of_getElem? next

theorem exists_controlPoints {dependencies : List (BlockId × BlockId)}
    (found : graph.controlDependencies = .ok dependencies) :
    ∃ pairs, graph.controlPoints = .ok pairs ∧
      ∀ control point, (control, point) ∈ pairs ↔ (control.block, point.block) ∈ dependencies ∧
        (∃ node, graph.At control node) ∧ ∃ node, graph.At point node := by
  refine ⟨_, by rw [controlPoints, found]; rfl, ?_⟩
  intro control point
  simp only [List.mem_flatMap, List.mem_map, mem_points]
  constructor
  · rintro ⟨⟨branch, dependent⟩, member, _, ⟨isBranch, isControl⟩, _, ⟨isDependent, isPoint⟩, same⟩
    rcases Prod.ext_iff.1 same with ⟨rfl, rfl⟩
    exact ⟨by rwa [isBranch, isDependent], isControl, isPoint⟩
  · rintro ⟨member, isControl, isPoint⟩
    exact ⟨_, member, control, ⟨rfl, isControl⟩, point, ⟨rfl, isPoint⟩, rfl⟩

theorem map_pairs {α β : Type} (f : α → β) (first second : List α) :
    (first.flatMap fun left => second.map fun right => (left, right)).map (Prod.map f f) =
      (first.map f).flatMap fun left => (second.map f).map fun right => (left, right) := by
  simp [List.map_flatMap, List.flatMap_map, Function.comp_def]

/-- The statements of dependent points are those of the dependent pairs. -/
theorem controlPairs_of_controlPoints {pairs : List (Point × Point)}
    (found : graph.controlPoints = .ok pairs) :
    ∃ statements, graph.controlPairs = .ok statements ∧
      statements.map (Prod.map some some) = pairs.map (Prod.map graph.node? graph.node?) := by
  have nodes : ∀ id, (graph.points id).map graph.node? = (graph.statements id).map some := by
    intro id
    apply List.ext_getElem
    · simp [points]
    · intro offset _ small
      have small : offset < (graph.statements id).length := by simpa using small
      simp [points, node?, small]
  rw [controlPoints] at found
  cases dependencies : graph.controlDependencies with
  | error failure =>
      rw [dependencies] at found
      cases found
  | ok dependencies' =>
      rw [dependencies] at found
      rcases Except.ok.inj found with rfl
      refine ⟨_, by rw [controlPairs, dependencies]; rfl, ?_⟩
      simp only [List.map_flatMap]
      apply List.flatMap_congr
      intro pair _
      rw [← List.map_flatMap, ← List.map_flatMap, map_pairs, map_pairs, nodes, nodes]

/-! ### The graph of the other statements -/

theorem statements_map (f : Node → Node) (graph : Graph) (id : BlockId) :
    (graph.map f).statements id = (graph.statements id).map f := by
  simp only [statements, block?, map, List.getElem?_map, Option.map_map]
  cases graph.blocks[id]? <;> rfl

theorem node?_map (f : Node → Node) (graph : Graph) (point : Point) :
    (graph.map f).node? point = (graph.node? point).map f := by
  simp [node?, statements_map]

theorem path_map (f : Node → Node) {source target : BlockId} {blocks : List BlockId} :
    (graph.map f).Path source blocks target ↔ graph.Path source blocks target := by
  constructor
  · intro path
    induction path with
    | single id => exact .single id
    | step edge _ ih => exact .step edge ih
  · intro path
    induction path with
    | single id => exact .single id
    | step edge _ ih => exact .step edge ih

theorem directlyDepends_map (f : Node → Node) {branch dependent : BlockId} :
    (graph.map f).DirectlyDepends branch dependent ↔ graph.DirectlyDepends branch dependent := by
  have sameReachable : (graph.map f).reachable = graph.reachable := by
    rw [reachable, size, map, List.length_map]
    rfl
  have samePostdominates : ∀ other id,
      (graph.map f).Postdominates other id ↔ graph.Postdominates other id := by
    intro other id
    constructor
    · exact fun all blocks exit path => all blocks exit ((path_map f).2 path)
    · exact fun all blocks exit path => all blocks exit ((path_map f).1 path)
  constructor
  · rintro ⟨branchReached, dependentReached, ne, ⟨successor, edge, certain⟩, uncertain⟩
    exact ⟨sameReachable ▸ branchReached, sameReachable ▸ dependentReached, ne,
      ⟨successor, edge, (samePostdominates _ _).1 certain⟩,
      fun claimed => uncertain ((samePostdominates _ _).2 claimed)⟩
  · rintro ⟨branchReached, dependentReached, ne, ⟨successor, edge, certain⟩, uncertain⟩
    exact ⟨sameReachable ▸ branchReached, sameReachable ▸ dependentReached, ne,
      ⟨successor, edge, (samePostdominates _ _).2 certain⟩,
      fun claimed => uncertain ((samePostdominates _ _).1 claimed)⟩

/-! ### Statements that are placed once -/

/-- Where no statement is placed twice, a statement follows one point only. -/
theorem eq_of_at (distinct : (graph.blocks.flatMap Block.statements).Nodup) {point point' : Point}
    (next : graph.At point node) (next' : graph.At point' node) : point = point' := by
  rcases List.nodup_flatMap.1 distinct with ⟨inBlock, apart⟩
  rcases exists_block_of_mem next.mem with ⟨small, statementsEq⟩
  rcases exists_block_of_mem next'.mem with ⟨small', statementsEq'⟩
  have member := statementsEq ▸ next.mem
  have member' := statementsEq' ▸ next'.mem
  have sameBlock : point.block = point'.block := by
    rcases Nat.lt_trichotomy point.block point'.block with before | same | after
    · exact absurd member' (List.pairwise_iff_getElem.1 apart _ _ small small' before member)
    · exact same
    · exact absurd member (List.pairwise_iff_getElem.1 apart _ _ small' small after member')
  rcases point with ⟨block, offset⟩
  rcases point' with ⟨block', offset'⟩
  obtain rfl : block = block' := sameBlock
  have distinctHere : (graph.statements block).Nodup :=
    statementsEq ▸ inBlock _ (List.getElem_mem small)
  rcases List.getElem?_eq_some_iff.1 next with ⟨smallOffset, found⟩
  rcases List.getElem?_eq_some_iff.1 next' with ⟨smallOffset', found'⟩
  have sameOffset := (distinctHere.getElem_inj_iff).1 (found.trans found'.symm)
  exact congrArg (Point.mk block) sameOffset

/-- Meeting a statement for certain is passing through its block for certain. -/
theorem unavoidable_iff_postdominates (only : ∀ id, node ∈ graph.statements id ↔ id = block)
    {id : BlockId} : graph.Unavoidable ⟨id, 0⟩ node ↔ graph.Postdominates block id := by
  constructor
  · intro unavoidable blocks exit path noEdge
    rcases Finishes.of_path path noEdge with ⟨moves, finishes⟩
    have met := unavoidable _ ⟨moves, _, finishes⟩
    rcases List.mem_flatMap.1 met with ⟨met, member, isStatement⟩
    exact (only met).1 isStatement ▸ member
  · rintro postdominates trace ⟨moves, raised, finishes⟩
    rcases finishes.exists_path (Nat.zero_le _) with ⟨blocks, exit, path, noEdge, rfl, -⟩
    have passed := postdominates _ _ path noEdge
    have met : node ∈ graph.trace (id :: blocks) :=
      List.mem_flatMap.2 ⟨block, passed, (only block).2 rfl⟩
    simpa using met

theorem mem_statements_iff :
    node ∈ graph.blocks.flatMap Block.statements ↔ ∃ point, graph.At point node := by
  simp only [List.mem_flatMap]
  constructor
  · rintro ⟨block, isBlock, member⟩
    rcases List.mem_iff_getElem?.1 isBlock with ⟨id, found⟩
    rcases List.mem_iff_getElem?.1 member with ⟨offset, next⟩
    refine ⟨⟨id, offset⟩, ?_⟩
    rw [At, statements, block?, found]
    exact next
  · rintro ⟨point, next⟩
    rcases exists_block_of_mem next.mem with ⟨small, statementsEq⟩
    exact ⟨_, List.getElem_mem small, statementsEq ▸ next.mem⟩

theorem mem_statements_iff_eq (distinct : (graph.blocks.flatMap Block.statements).Nodup)
    {point : Point} (next : graph.At point node) (id : BlockId) :
    node ∈ graph.statements id ↔ id = point.block := by
  constructor
  · intro member
    rcases exists_at_of_mem member with ⟨offset, next'⟩
    exact congrArg Point.block (eq_of_at distinct next' next)
  · rintro rfl
    exact next.mem

/-! ### Programs without jumps -/

theorem governs_of_reachable (laid : Command.ProgramLaidOut graph program)
    (falls : Command.AllFallThrough program) (reached : block ∈ graph.reachable) :
    graph.Governs (Command.nestingAll program) block := by
  rcases laid.laid with ⟨stop, laidOut, stopEnds, -⟩
  have nests := Command.AllLaidOut.nests laid.wellFormed program falls laidOut
  rcases laid.wellFormed.mem_reachable_iff.1 reached with ⟨blocks, path⟩
  rcases nests.governed blocks block path with governs | met
  · exact governs
  · -- Control does not leave the block in which the program ends.
    rcases List.append_of_mem met with ⟨before, after, rfl⟩
    intro successor edge
    cases path.split.2 with
    | single => exact absurd ((stopEnds.2 successor).1 edge) List.not_mem_nil
    | @step _ next _ _ edge' _ => exact absurd ((stopEnds.2 next).1 edge') List.not_mem_nil

theorem decides_of_parent (laid : Command.ProgramLaidOut graph program)
    (falls : Command.AllFallThrough program)
    (distinct : (Command.nestingAll program).labels.Nodup) {upper lower : Node}
    (parent : (Command.nestingAll program).Parent upper lower) : graph.Decides upper lower := by
  rcases laid.laid with ⟨stop, laidOut, stopEnds, -⟩
  have nests := Command.AllLaidOut.nests laid.wellFormed program falls laidOut
  have ends : graph.Ahead stop [] := ⟨0, _, .stop stopEnds⟩
  exact nests.decides laid.wellFormed.entry_mem_reachable distinct ⟨[], ends, by simp⟩ _ _ parent

/-- A chain of direct dependences leads from the only statement of a block to what stands beneath
it. -/
theorem exists_above_of_transGen (laid : Command.ProgramLaidOut graph program)
    (falls : Command.AllFallThrough program)
    (distinct : (Command.nestingAll program).labels.Nodup)
    (once : (graph.blocks.flatMap Block.statements).Nodup) {branch dependent : BlockId}
    (depends : Relation.TransGen graph.DirectlyDepends branch dependent)
    (member : node ∈ graph.statements dependent) :
    ∃ control, graph.statements branch = [control] ∧
      (Command.nestingAll program).Above control node := by
  have direct : ∀ {branch dependent : BlockId} {node : Node},
      graph.DirectlyDepends branch dependent → node ∈ graph.statements dependent →
        ∃ control, graph.statements branch = [control] ∧
          (Command.nestingAll program).Above control node := by
    intro branch dependent node depends member
    rcases exists_at_of_mem member with ⟨offset, next⟩
    have only := mem_statements_iff_eq once next
    rcases depends.exists_successor with ⟨successor, edge, certain⟩
    refine governs_of_reachable laid falls depends.branch_reached successor edge node ?_ ?_
    · exact (unavoidable_iff_postdominates only).2 certain
    · intro claimed
      exact depends.not_postdominates ((unavoidable_iff_postdominates only).1 claimed)
  induction depends using Relation.TransGen.head_induction_on with
  | single depends => exact direct depends member
  | head depends _ ih =>
      rcases ih with ⟨between, statements, above⟩
      rcases direct depends (statements ▸ List.mem_cons_self) with ⟨control, statements', above'⟩
      exact ⟨control, statements', above'.trans distinct above⟩

/-- What is decided at the block of a statement depends directly on it. -/
theorem Decides.exists_directlyDepends (wellFormed : graph.WellFormed)
    (canEnd : ∀ id ∈ graph.reachable, graph.CanEnd id)
    (once : (graph.blocks.flatMap Block.statements).Nodup) {upper lower : Node}
    (decides : graph.Decides upper lower) {point : Point} (next : graph.At point lower) :
    ∃ id, graph.At ⟨id, 0⟩ upper ∧ graph.DirectlyDepends id point.block := by
  rcases decides with ⟨id, reached, statements, ⟨successor, edge, certain⟩, uncertain⟩
  have only := mem_statements_iff_eq once next
  rw [unavoidable_iff_postdominates only] at certain uncertain
  have successorReached := wellFormed.mem_reachable_of_successor reached edge
  rcases canEnd successor successorReached with ⟨blocks, exit, path, noEdge⟩
  refine ⟨id, by rw [At, statements]; rfl, reached, ?_, ?_, ⟨successor, edge, certain⟩, uncertain⟩
  · exact wellFormed.mem_reachable_of_mem path successorReached (certain blocks exit path noEdge)
  · rintro rfl
    exact uncertain (.refl _)

/-- Points are arranged as the nodes of a forest, each point of a graph once. -/
structure Arranges (graph : Graph) (nodes : Forest Node) (places : Forest Point) : Prop where
  map_node? : places.map graph.node? = nodes.map some
  nodup : places.labels.Nodup
  mem_iff : ∀ point, point ∈ places.labels ↔ ∃ node, graph.At point node

/-- The statements of a program in which none occurs twice stand at points of their own. -/
theorem exists_position (distinct : (Command.nestingAll program).labels.Nodup) :
    ∃ position : Node → Point,
      (∀ node ∈ (Command.nestingAll program).labels, (ofCommands program).At (position node) node) ∧
      ∀ point node, (ofCommands program).At point node →
        node ∈ (Command.nestingAll program).labels ∧ position node = point := by
  have placed := statements_ofCommands program
  have once := placed.nodup_iff.2 distinct
  have exists_at : ∀ node, ∃ point, node ∈ (Command.nestingAll program).labels →
      (ofCommands program).At point node := by
    intro node
    by_cases member : node ∈ (Command.nestingAll program).labels
    · rcases mem_statements_iff.1 (placed.mem_iff.2 member) with ⟨point, next⟩
      exact ⟨point, fun _ => next⟩
    · exact ⟨⟨0, 0⟩, fun isPlaced => absurd isPlaced member⟩
  choose position next using exists_at
  refine ⟨position, next, ?_⟩
  intro point node next'
  have member := placed.mem_iff.1 (mem_statements_iff.2 ⟨point, next'⟩)
  exact ⟨member, eq_of_at once (next node member) next'⟩

theorem exists_at_map (f : Node → Node) (point : Point) :
    (∃ node, (graph.map f).At point node) ↔ ∃ node, graph.At point node := by
  have mapped := node?_map f graph point
  constructor
  · rintro ⟨node, next⟩
    rcases Option.map_eq_some_iff.1 (mapped.symm.trans next) with ⟨original, next, -⟩
    exact ⟨original, next⟩
  · rintro ⟨node, next⟩
    exact ⟨f node, mapped.trans (congrArg (Option.map f) next)⟩

theorem arranges_map (f : Node → Node) {nodes : Forest Node} (distinct : nodes.labels.Nodup)
    {position : Node → Point} (next : ∀ node ∈ nodes.labels, graph.At (position node) node)
    (position_eq : ∀ point node, graph.At point node →
      node ∈ nodes.labels ∧ position node = point) :
    (graph.map f).Arranges (nodes.map f) (nodes.map position) where
  map_node? := by
    rw [Forest.map_map, Forest.map_map]
    apply Forest.map_congr
    intro node member
    exact (node?_map f graph (position node)).trans (congrArg (Option.map f) (next node member))
  nodup := by
    rw [Forest.labels_map]
    refine distinct.map_on ?_
    intro node member node' member' same
    have next' := next node' member'
    rw [← same] at next'
    exact Option.some.inj ((next node member).symm.trans next')
  mem_iff := by
    intro point
    rw [Forest.labels_map, List.mem_map, exists_at_map]
    constructor
    · rintro ⟨node, member, rfl⟩
      exact ⟨node, next node member⟩
    · rintro ⟨node, next'⟩
      exact ⟨node, position_eq point node next'⟩

/-- In the graph of a program without jumps, points depend on each other as they are nested. -/
theorem exists_controlPoints_ofCommands (falls : Command.AllFallThrough program) :
    ∃ places pairs, (ofCommands program).Arranges (Command.nestingAll program) places ∧
      (ofCommands program).controlPoints = .ok pairs ∧
      ∀ upper lower, Relation.TransGen (fun control point => (control, point) ∈ pairs) upper lower ↔
        places.Above upper lower := by
  rcases Command.exists_distinct program with ⟨original, f, distinct, rfl⟩
  rw [Command.allFallThrough_mapAll] at falls
  have laid := ofCommands_laidOut original
  have once := (statements_ofCommands original).nodup_iff.2 distinct
  have canEnd : ∀ id ∈ (ofCommands original).reachable, (ofCommands original).CanEnd id :=
    fun id reached => canEnd_ofCommands original (laid.wellFormed.lt_size_of_mem_reachable reached)
  have laid' := ofCommands_laidOut (Command.mapAll f original)
  rcases exists_controlDependencies laid'.wellFormed (fun id reached => canEnd_ofCommands _
    (laid'.wellFormed.lt_size_of_mem_reachable reached)) (nodup_edges_ofCommands _) with
    ⟨dependencies, found, direct, indirect, -⟩
  rcases exists_position distinct with ⟨position, next, position_eq⟩
  rw [ofCommands_mapAll] at found direct indirect
  rw [ofCommands_mapAll, Command.nestingAll_mapAll]
  have arranges := arranges_map f distinct next position_eq
  rcases exists_controlPoints found with ⟨pairs, pairsFound, mem_pairs⟩
  refine ⟨_, pairs, arranges, pairsFound, ?_⟩
  have aboveOfPair : ∀ {control point : Point}, (control, point) ∈ pairs →
      ((Command.nestingAll original).map position).Above control point := by
    intro control point member
    rcases (mem_pairs control point).1 member with ⟨depends, isControl, isPoint⟩
    rcases (exists_at_map f control).1 isControl with ⟨upper, nextUpper⟩
    rcases (exists_at_map f point).1 isPoint with ⟨lower, nextLower⟩
    have chain := Relation.TransGen.mono (fun _ _ => (directlyDepends_map f).1) _ _
      (indirect _ depends).2
    rcases exists_above_of_transGen laid falls distinct once chain nextLower.mem with
      ⟨branch, statements, above⟩
    have isBranch := nextUpper.mem
    rw [statements, List.mem_singleton] at isBranch
    refine Forest.above_map.2 ⟨branch, lower, ?_, (position_eq _ _ nextLower).2, above⟩
    exact isBranch ▸ (position_eq _ _ nextUpper).2
  intro upper lower
  constructor
  · intro depends
    induction depends with
    | single pair => exact aboveOfPair pair
    | tail _ pair ih => exact ih.trans arranges.nodup (aboveOfPair pair)
  · intro above
    rcases Forest.above_map.1 above with ⟨upper, lower, rfl, rfl, nested⟩
    refine Relation.TransGen.lift position ?_ _ _ nested.transGen_parent
    intro branch node parent
    have nextLower := next node parent.above.lower_mem
    have nextUpper := next branch parent.above.upper_mem
    have decides := decides_of_parent laid falls distinct parent
    rcases decides.exists_directlyDepends laid.wellFormed canEnd once nextLower with
      ⟨id, nextBranch, depends⟩
    have branchEq : (position branch).block = id :=
      congrArg Point.block ((position_eq _ _ nextBranch).2)
    refine (mem_pairs _ _).2 ⟨branchEq ▸ direct _ _ ((directlyDepends_map f).2 depends), ?_, ?_⟩
    · exact (exists_at_map f _).2 ⟨branch, nextUpper⟩
    · exact (exists_at_map f _).2 ⟨node, nextLower⟩

/-- In the graph of a module or function without jumps, a chain of control dependences leads from
one statement to another exactly if the second one is nested beneath the first one. -/
theorem transGen_controlPoints_iff_above {root : Node} (built : ofRoot root = .ok graph)
    (falls : ∀ statement, Node.StandsIn root.body statement → statement.FallsThrough) :
    ∃ places pairs statements, graph.Arranges (Node.nestingAll root.body) places ∧
      graph.controlPoints = .ok pairs ∧ graph.controlPairs = .ok statements ∧
      statements.map (Prod.map some some) = pairs.map (Prod.map graph.node? graph.node?) ∧
      ∀ upper lower, Relation.TransGen (fun control point => (control, point) ∈ pairs) upper lower ↔
        places.Above upper lower := by
  have isGraph : graph = ofCommands (Command.ofNodes root.body) := by
    rcases ofRoot_eq_ok built with ⟨statements, rfl, shape | ⟨name, params, decorators, shape⟩⟩
    · rw [Node.body, shape, ofStatements]
    · rw [Node.body, shape, ofStatements]
  subst isGraph
  have commandsFall := Command.allFallThrough_ofNodes root.body falls
  rcases exists_controlPoints_ofCommands commandsFall with
    ⟨places, pairs, arranges, pairsFound, depends_iff⟩
  rcases controlPairs_of_controlPoints pairsFound with ⟨statements, found, sameStatements⟩
  rw [Command.nestingAll_ofNodes] at arranges
  exact ⟨places, pairs, statements, arranges, pairsFound, found, sameStatements, depends_iff⟩

/-- A conditional in the body of a loop. -/
def loopedConditional : Node :=
  ⟨.module [⟨.whileLoop ⟨.name "c", default⟩
      [⟨.conditional ⟨.name "d", default⟩ [⟨.pass, default⟩] [] none, default⟩] [], default⟩],
    default⟩

theorem fallsThrough_of_standsIn_loopedConditional {statement : Node}
    (stands : Node.StandsIn loopedConditional.body statement) : statement.FallsThrough := by
  have among : statement ∈ loopedConditional.body ++
      [⟨.conditional ⟨.name "d", default⟩ [⟨.pass, default⟩] [] none, default⟩,
        ⟨.pass, default⟩] := by
    induction stands with
    | here member => exact List.mem_append_left _ member
    | within _ runs member ih =>
        simp only [loopedConditional, Node.body, List.cons_append, List.nil_append, List.mem_cons,
          List.not_mem_nil, or_false] at ih
        rcases ih with rfl | rfl | rfl
        · simp only [Node.statementLists, List.mem_cons, List.not_mem_nil, or_false] at runs
          rcases runs with rfl | rfl <;> simp_all
        · simp only [Node.statementLists, List.map_nil, Option.toList_none, List.append_nil,
            List.mem_singleton] at runs
          subst runs
          simp_all
        · simp [Node.statementLists] at runs
  simp only [loopedConditional, Node.body, List.cons_append, List.nil_append, List.mem_cons,
    List.not_mem_nil, or_false] at among
  rcases among with rfl | rfl | rfl <;> exact trivial

/-- What the conditional guards depends on the head of the loop along a chain. -/
theorem transGen_controlPoints_loopedConditional : ∃ graph pairs head inner,
    ofRoot loopedConditional = .ok graph ∧ graph.controlPoints = .ok pairs ∧
      graph.node? head = some ⟨.name "c", default⟩ ∧ graph.node? inner = some ⟨.pass, default⟩ ∧
      Relation.TransGen (fun control point => (control, point) ∈ pairs) head inner := by
  have built : ofRoot loopedConditional = .ok _ := rfl
  rcases transGen_controlPoints_iff_above built
      (fun _ => fallsThrough_of_standsIn_loopedConditional) with
    ⟨places, pairs, statements, arranges, found, -, -, depends_iff⟩
  have nested : ((Node.nestingAll loopedConditional.body).map some).Above
      (some ⟨.name "c", default⟩) (some ⟨.pass, default⟩) :=
    .inl ⟨rfl, List.mem_cons_of_mem _ List.mem_cons_self⟩
  rw [← arranges.map_node?] at nested
  rcases Forest.above_map.1 nested with ⟨head, inner, isHead, isInner, above⟩
  exact ⟨_, pairs, head, inner, rfl, found, isHead, isInner, (depends_iff head inner).2 above⟩

end Graph

end FlowAnalysis
