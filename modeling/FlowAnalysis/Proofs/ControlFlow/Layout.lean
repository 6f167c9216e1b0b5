import FlowAnalysis.Proofs.ControlFlow.Region

/-!
# What the construction of a graph draws

Every step of the construction only adds: blocks at the end, edges, and statements to the block in
which control has arrived. `Layout.Grows` records this for steps that leave the statements of the
old blocks alone, together with the edges drawn from old blocks; `Layout.Region` records it for the
layout of commands from the block in which control arrives to the block in which it goes on. The
main result, `Layout.layCommands_lays`, says that commands come to lie as `Command.LaidOut`
describes in whatever graph the construction ends with: blocks that a command has left behind are
never touched again.
-/

namespace FlowAnalysis

/-- A jump may go to the block. -/
def Surroundings.IsTarget (around : Surroundings) (id : BlockId) : Prop :=
  ∃ jump, around.target? jump = some id

namespace Layout

/-- The number of blocks. -/
def size (layout : Layout) : Nat :=
  layout.blocks.length

/-- The statements of a block. -/
def statements (layout : Layout) (id : BlockId) : List Node :=
  ((layout.blocks[id]?).map Block.statements).getD []

/-- Edges lead from blocks to blocks. -/
def InRange (layout : Layout) : Prop :=
  ∀ edge ∈ layout.edges, edge.1 < layout.size ∧ edge.2 < layout.size

/-- No edge leaves a block. -/
def Open (layout : Layout) (id : BlockId) : Prop :=
  ∀ target, (id, target) ∉ layout.edges

/-! ### Steps of the construction -/

theorem exists_of_run_bind {α β : Type} {first : StateM Layout α} {rest : α → StateM Layout β}
    {layout layout' : Layout} {result : β}
    (run : (first >>= rest).run layout = (result, layout')) :
    ∃ value middle, first.run layout = (value, middle) ∧
      (rest value).run middle = (result, layout') :=
  ⟨_, _, rfl, run⟩

theorem of_run_pure {α : Type} {value result : α} {layout layout' : Layout}
    (run : (pure value : StateM Layout α).run layout = (result, layout')) :
    result = value ∧ layout' = layout := by
  cases run
  exact ⟨rfl, rfl⟩

theorem of_run_newBlock {around : Surroundings} {role : BlockRole} {nodes : List Node}
    {layout layout' : Layout} {id : BlockId}
    (run : (newBlock around role nodes).run layout = (id, layout')) :
    id = layout.size ∧ layout'.size = layout.size + 1 ∧ layout'.statements id = nodes ∧
      (∀ other < layout.size, layout'.statements other = layout.statements other) ∧
      layout'.edges = layout.edges := by
  cases run
  refine ⟨rfl, by simp [size], by simp [statements], ?_, rfl⟩
  intro other small
  have small : other < layout.blocks.length := small
  simp [statements, List.getElem?_append_left small]

theorem of_run_link {source target : BlockId} {layout layout' : Layout} {result : Unit}
    (run : (link source target).run layout = (result, layout')) :
    layout'.blocks = layout.blocks ∧
      ∀ edge, edge ∈ layout'.edges ↔ edge ∈ layout.edges ∨ edge = (source, target) := by
  cases run
  by_cases drawn : (source, target) ∈ layout.edges
  · simp only [drawn, if_true, true_and]
    rintro edge
    constructor
    · exact .inl
    · rintro (old | rfl)
      · exact old
      · exact drawn
  · simp [drawn]

theorem linkAll_cons (source : BlockId) (sources : List BlockId) (target : BlockId) :
    linkAll (source :: sources) target = (link source target >>= fun _ => linkAll sources target) :=
  rfl

theorem of_run_append {id : BlockId} {statement : Node} {layout layout' : Layout} {result : Unit}
    (run : (append id statement).run layout = (result, layout')) :
    layout'.size = layout.size ∧ layout'.edges = layout.edges ∧
      (∀ other, other ≠ id → layout'.statements other = layout.statements other) ∧
      (id < layout.size → layout'.statements id = layout.statements id ++ [statement]) := by
  cases run
  refine ⟨by simp [size], rfl, ?_, ?_⟩
  · intro other differs
    simp [statements, Ne.symm differs]
  · intro small
    have small : id < layout.blocks.length := small
    simp [statements, small]

/-! ### Growth -/

/-- A layout grows: the statements of the old blocks stay, the given edges are drawn from old blocks
and perhaps others from new ones, and all of them enter allowed blocks. -/
structure Grows (allowed : BlockId → Prop) (drawn : List (BlockId × BlockId))
    (layout layout' : Layout) : Prop where
  size_le : layout.size ≤ layout'.size
  statements_eq : ∀ id < layout.size, layout'.statements id = layout.statements id
  mem_edges : ∀ id < layout.size, ∀ target,
    (id, target) ∈ layout'.edges ↔ (id, target) ∈ layout.edges ∨ (id, target) ∈ drawn
  entered : ∀ edge ∈ layout'.edges, edge ∈ layout.edges ∨ allowed edge.2
  inRange : layout.InRange → layout'.InRange

namespace Grows

variable {allowed : BlockId → Prop}

theorem refl (layout : Layout) : Grows allowed [] layout layout :=
  ⟨Nat.le_refl _, fun _ _ => rfl, by simp, fun _ old => .inl old, id⟩

theorem trans {first second : List (BlockId × BlockId)} {layout middle layout' : Layout}
    (before : Grows allowed first layout middle) (after : Grows allowed second middle layout') :
    Grows allowed (first ++ second) layout layout' where
  size_le := Nat.le_trans before.size_le after.size_le
  statements_eq := by
    intro id small
    have larger := before.size_le
    rw [after.statements_eq id (by lia), before.statements_eq id small]
  mem_edges := by
    intro id small target
    have larger := before.size_le
    rw [after.mem_edges id (by lia), before.mem_edges id small, List.mem_append, or_assoc]
  entered := by
    intro edge edgeMem
    rcases after.entered edge edgeMem with old | allowed
    · exact before.entered edge old
    · exact .inr allowed
  inRange := fun inRange => after.inRange (before.inRange inRange)

theorem mono {allowed' : BlockId → Prop} {drawn : List (BlockId × BlockId)}
    {layout layout' : Layout} (weaker : ∀ id, allowed id → allowed' id)
    (grows : Grows allowed drawn layout layout') : Grows allowed' drawn layout layout' :=
  { grows with
    entered := fun edge edgeMem => (grows.entered edge edgeMem).imp_right (weaker _) }

theorem of_newBlock {around : Surroundings} {role : BlockRole} {nodes : List Node}
    {layout layout' : Layout} {id : BlockId}
    (run : (newBlock around role nodes).run layout = (id, layout')) :
    Grows allowed [] layout layout' := by
  rcases of_run_newBlock run with ⟨-, sizeEq, -, statementsEq, edgesEq⟩
  refine ⟨by lia, statementsEq, by simp [edgesEq], by simp +contextual [edgesEq], ?_⟩
  intro inRange edge edgeMem
  have := inRange edge (edgesEq ▸ edgeMem)
  lia

theorem of_link {source target : BlockId} {layout layout' : Layout} {result : Unit}
    (run : (link source target).run layout = (result, layout')) (sourceLt : source < layout.size)
    (targetLt : target < layout.size) (targetAllowed : allowed target) :
    Grows allowed [(source, target)] layout layout' := by
  rcases of_run_link run with ⟨blocksEq, memEdges⟩
  have sizeEq : layout'.size = layout.size := by rw [size, blocksEq, size]
  refine ⟨by lia, by simp [statements, blocksEq], by simp [memEdges], ?_, ?_⟩
  · intro edge edgeMem
    rcases (memEdges edge).1 edgeMem with old | rfl
    · exact .inl old
    · exact .inr targetAllowed
  · intro inRange edge edgeMem
    rcases (memEdges edge).1 edgeMem with old | rfl
    · have := inRange edge old
      lia
    · exact ⟨by lia, by lia⟩

theorem of_linkAll {sources : List BlockId} {target : BlockId} {layout layout' : Layout}
    {result : Unit} (run : (linkAll sources target).run layout = (result, layout'))
    (sourcesLt : ∀ source ∈ sources, source < layout.size) (targetLt : target < layout.size)
    (targetAllowed : allowed target) :
    Grows allowed (sources.map fun source => (source, target)) layout layout' ∧
      layout'.size = layout.size := by
  induction sources generalizing layout with
  | nil =>
      rcases of_run_pure run with ⟨-, rfl⟩
      exact ⟨refl _, rfl⟩
  | cons source sources ih =>
      rw [linkAll_cons] at run
      rcases exists_of_run_bind run with ⟨_, middle, linked, run⟩
      have first : Grows allowed [(source, target)] layout middle :=
        of_link linked (sourcesLt source (by simp)) targetLt targetAllowed
      have sizeEq : middle.size = layout.size := by
        rw [size, (of_run_link linked).1, size]
      have restLt : ∀ source ∈ sources, source < middle.size := by
        intro source sourceMem
        rw [sizeEq]
        exact sourcesLt source (List.mem_cons_of_mem _ sourceMem)
      rcases ih run restLt (by lia) with ⟨later, laterSize⟩
      exact ⟨first.trans later, by lia⟩

theorem of_linkTo? {source : BlockId} {target? : Option BlockId} {layout layout' : Layout}
    {result : Unit} (run : (linkTo? source target?).run layout = (result, layout'))
    (sourceLt : source < layout.size) (targetLt : ∀ target ∈ target?, target < layout.size)
    (targetAllowed : ∀ target ∈ target?, allowed target) :
    Grows allowed (target?.toList.map fun target => (source, target)) layout layout' ∧
      layout'.size = layout.size := by
  cases target? with
  | none =>
      rcases of_run_pure run with ⟨-, rfl⟩
      exact ⟨refl _, rfl⟩
  | some target =>
      refine ⟨of_link run sourceLt (targetLt target rfl) (targetAllowed target rfl), ?_⟩
      rw [size, (of_run_link run).1, size]

theorem open_of {drawn : List (BlockId × BlockId)} {layout layout' : Layout}
    (grows : Grows allowed drawn layout layout') {id : BlockId} (small : id < layout.size)
    (isOpen : layout.Open id) (elsewhere : ∀ edge ∈ drawn, edge.1 ≠ id) : layout'.Open id := by
  intro target edgeMem
  rcases (grows.mem_edges id small target).1 edgeMem with old | new
  · exact isOpen target old
  · exact elsewhere _ new rfl

/-- Only edges from old blocks matter. -/
theorem congr {drawn drawn' : List (BlockId × BlockId)} {layout layout' : Layout}
    (grows : Grows allowed drawn layout layout')
    (same : ∀ id < layout.size, ∀ target, (id, target) ∈ drawn ↔ (id, target) ∈ drawn') :
    Grows allowed drawn' layout layout' :=
  { grows with
    mem_edges := fun id small target => by
      rw [grows.mem_edges id small, same id small target] }

end Grows

/-! ### Regions -/

/-- The blocks that commands may enter: new ones and the targets of jumps. -/
def Entered (layout : Layout) (around : Surroundings) (id : BlockId) : Prop :=
  layout.size ≤ id ∨ around.IsTarget id

/-- Edges and jumps lead to blocks. -/
structure Ready (around : Surroundings) (layout : Layout) : Prop where
  inRange : layout.InRange
  target_lt : ∀ id, around.IsTarget id → id < layout.size

/-- What the layout of commands does: control arrives in the block `last` and goes on in `next`,
which nothing has left yet. -/
structure Region (around : Surroundings) (layout : Layout) (last : BlockId) (layout' : Layout)
    (next : BlockId) : Prop where
  size_le : layout.size ≤ layout'.size
  next_lt : next < layout'.size
  next_eq_or_le : next = last ∨ layout.size ≤ next
  next_open : layout'.Open next
  statements_eq : ∀ id < layout.size, id ≠ last → layout'.statements id = layout.statements id
  last_statements : layout.statements last <+: layout'.statements last
  mem_edges : ∀ id < layout.size, id ≠ last → ∀ target,
    (id, target) ∈ layout'.edges ↔ (id, target) ∈ layout.edges
  entered : ∀ edge ∈ layout'.edges, edge ∈ layout.edges ∨ layout.Entered around edge.2
  inRange : layout'.InRange

/-- A block of a graph is as the layout has left it. -/
def Agrees (graph : Graph) (layout : Layout) (id : BlockId) : Prop :=
  graph.statements id = layout.statements id ∧
    ∀ target, target ∈ graph.successors id ↔ (id, target) ∈ layout.edges

/-- The blocks of a graph from one number up to another are as the layout has left them. -/
def AgreesOn (graph : Graph) (layout : Layout) (low high : BlockId) : Prop :=
  ∀ id, low ≤ id → id < high → Agrees graph layout id

/-- A graph has kept the blocks of a region, and may have gone on in the last one. -/
structure Completes (graph : Graph) (layout : Layout) (last : BlockId) (layout' : Layout)
    (next : BlockId) : Prop where
  agrees : ∀ id, id = last ∨ layout.size ≤ id → id < layout'.size → id ≠ next →
    Agrees graph layout' id
  next_statements : layout'.statements next <+: graph.statements next

/-- What is laid out behind a block forms a region and comes to lie in a certain way in every graph
that keeps the region. -/
def Lays (around : Surroundings) (lay : BlockId → StateM Layout BlockId)
    (shape : Graph → Point → Point → Prop) : Prop :=
  ∀ ⦃layout layout' : Layout⦄ ⦃last next : BlockId⦄, Ready around layout → last < layout.size →
    layout.Open last → (lay last).run layout = (next, layout') →
      Region around layout last layout' next ∧
        ∀ graph, Completes graph layout last layout' next →
          shape graph ⟨last, (layout.statements last).length⟩
            ⟨next, (layout'.statements next).length⟩

/-- A body in a block of its own, which is entered from some old blocks. -/
structure Body (around : Surroundings) (sources : List BlockId) (layout layout' : Layout)
    (exit : BlockId) (shape : Graph → Point → Point → Prop) : Prop where
  grows : Grows (layout.Entered around) (sources.map fun source => (source, layout.size))
    layout layout'
  exit_ge : layout.size ≤ exit
  exit_lt : exit < layout'.size
  exit_open : layout'.Open exit
  laid : ∀ graph, (∀ id, layout.size ≤ id → id < layout'.size → id ≠ exit →
      Agrees graph layout' id) → layout'.statements exit <+: graph.statements exit →
    shape graph ⟨layout.size, 0⟩ ⟨exit, (layout'.statements exit).length⟩

theorem Ready.of_grows {around : Surroundings} {allowed : BlockId → Prop}
    {drawn : List (BlockId × BlockId)} {layout layout' : Layout} (ready : Ready around layout)
    (grows : Grows allowed drawn layout layout') : Ready around layout' where
  inRange := grows.inRange ready.inRange
  target_lt := fun id isTarget => Nat.lt_of_lt_of_le (ready.target_lt id isTarget) grows.size_le

theorem InRange.open_size {layout : Layout} (inRange : layout.InRange) {id : BlockId}
    (large : layout.size ≤ id) : layout.Open id := by
  intro target drawn
  have := inRange _ drawn
  lia

namespace Agrees

variable {allowed : BlockId → Prop} {drawn : List (BlockId × BlockId)} {graph : Graph}
  {layout layout' : Layout} {id : BlockId}

/-- A block keeps what it had before the layout grew elsewhere. -/
theorem before (agrees : Agrees graph layout' id) (grows : Grows allowed drawn layout layout')
    (small : id < layout.size) (elsewhere : ∀ edge ∈ drawn, edge.1 ≠ id) :
    Agrees graph layout id := by
  refine ⟨by rw [agrees.1, grows.statements_eq id small], fun target => ?_⟩
  rw [agrees.2, grows.mem_edges id small]
  constructor
  · rintro (old | new)
    · exact old
    · exact absurd rfl (elsewhere _ new)
  · exact .inl

/-- The edges that leave a block which was open are those drawn afterwards. -/
theorem leads_of_open (agrees : Agrees graph layout' id)
    (grows : Grows allowed drawn layout layout') (small : id < layout.size)
    (isOpen : layout.Open id) {targets : List BlockId}
    (goes : ∀ target, (id, target) ∈ drawn ↔ target ∈ targets) : graph.Leads id targets := by
  intro target
  rw [agrees.2, grows.mem_edges id small, ← goes]
  simp [isOpen target]

/-- A block that was open ends where it ended before the layout grew. -/
theorem endsIn_of_open (agrees : Agrees graph layout' id)
    (grows : Grows allowed drawn layout layout') (small : id < layout.size)
    (isOpen : layout.Open id) {targets : List BlockId}
    (goes : ∀ target, (id, target) ∈ drawn ↔ target ∈ targets) :
    graph.EndsIn ⟨id, (layout.statements id).length⟩ targets :=
  ⟨by rw [agrees.1, grows.statements_eq id small],
    agrees.leads_of_open grows small isOpen goes⟩

end Agrees

/-- What only draws edges from the block in which control arrived, and goes on in a new block, forms
a region. -/
theorem Region.of_grows {around : Surroundings} {layout layout' : Layout} {last next : BlockId}
    {drawn : List (BlockId × BlockId)} (ready : Ready around layout)
    (grows : Grows (layout.Entered around) drawn layout layout')
    (fromLast : ∀ edge ∈ drawn, edge.1 = last ∨ layout.size ≤ edge.1)
    (nextLarge : layout.size ≤ next) (nextLt : next < layout'.size)
    (nextOpen : layout'.Open next) (lastLt : last < layout.size) :
    Region around layout last layout' next where
  size_le := grows.size_le
  next_lt := nextLt
  next_eq_or_le := .inr nextLarge
  next_open := nextOpen
  statements_eq := fun id small _ => grows.statements_eq id small
  last_statements := by
    simp [grows.statements_eq last lastLt]
  mem_edges := by
    intro id small notLast target
    rw [grows.mem_edges id small]
    constructor
    · rintro (old | new)
      · exact old
      · have := fromLast _ new
        lia
    · exact .inl
  entered := grows.entered
  inRange := grows.inRange ready.inRange

/-! ### Bodies -/

section Bodies

variable {around : Surroundings} {role : BlockRole} {lay : BlockId → StateM Layout BlockId}
  {shape : Graph → Point → Point → Prop} {layout layout' : Layout} {exit : BlockId}

theorem of_run_layBody {sources : List BlockId} (lays : Lays around lay shape)
    (ready : Ready around layout) (sourcesLt : ∀ source ∈ sources, source < layout.size)
    (run : (layBody around role sources lay).run layout = (exit, layout')) :
    Body around sources layout layout' exit shape := by
  rcases exists_of_run_bind run with ⟨entry, started, created, run⟩
  rcases exists_of_run_bind run with ⟨bodyExit, laid, layRun, run⟩
  rcases exists_of_run_bind run with ⟨_, linked, linkRun, run⟩
  rcases of_run_pure run with ⟨rfl, rfl⟩
  rcases of_run_newBlock created with ⟨rfl, startedSize, entryEmpty, -, startedEdges⟩
  have start : Grows (layout.Entered around) [] layout started := .of_newBlock created
  have entryOpen : started.Open layout.size := by
    intro target drawn
    exact ready.inRange.open_size (Nat.le_refl _) target (startedEdges ▸ drawn)
  rcases lays (ready.of_grows start) (by lia) entryOpen layRun with ⟨region, shaped⟩
  have regionSize := region.size_le
  have exitPlace := region.next_eq_or_le
  have exitLt := region.next_lt
  have inside : Grows (layout.Entered around) [] layout laid := by
    refine ⟨by lia, ?_, ?_, ?_, fun _ => region.inRange⟩
    · intro id small
      rw [region.statements_eq id (by lia) (by lia), start.statements_eq id small]
    · intro id small target
      rw [region.mem_edges id (by lia) (by lia), startedEdges]
      simp
    · intro edge edgeMem
      rcases region.entered edge edgeMem with old | large | isTarget
      · exact .inl (startedEdges ▸ old)
      · exact .inr (.inl (by lia))
      · exact .inr (.inr isTarget)
  have sourcesLaid : ∀ source ∈ sources, source < laid.size := by
    intro source sourceMem
    have := sourcesLt source sourceMem
    lia
  have linking : Grows (layout.Entered around) (sources.map fun source => (source, layout.size))
      laid layout' ∧ layout'.size = laid.size :=
    Grows.of_linkAll linkRun sourcesLaid (by lia) (.inl (Nat.le_refl _))
  rcases linking with ⟨entering, sizeEq⟩
  have notSource : ∀ id, layout.size ≤ id →
      ∀ edge ∈ sources.map fun source => (source, layout.size), edge.1 ≠ id := by
    intro id large edge edgeMem
    rcases List.mem_map.1 edgeMem with ⟨source, sourceMem, rfl⟩
    have := sourcesLt source sourceMem
    lia
  refine ⟨inside.trans entering, by lia, by lia, ?_, ?_⟩
  · intro target drawn
    rcases (entering.mem_edges exit exitLt target).1 drawn with old | new
    · exact region.next_open target old
    · exact notSource exit (by lia) _ new rfl
  · intro graph agrees exitStatements
    have statementsEq := entering.statements_eq exit exitLt
    rw [statementsEq] at exitStatements ⊢
    have completes : Completes graph started layout.size laid exit := by
      refine ⟨?_, exitStatements⟩
      intro id inBody small notExit
      have large : layout.size ≤ id := by lia
      exact (agrees id large (by lia) notExit).before entering small (notSource id large)
    simpa [entryEmpty] using shaped graph completes

namespace Body

/-- A graph that keeps the blocks of a body has the body, and it has drawn the edges behind it. -/
theorem laid_and_endsIn {sources : List BlockId} (body : Body around sources layout layout' exit shape)
    {allowed : BlockId → Prop} {drawn : List (BlockId × BlockId)} {final : Layout}
    (later : Grows allowed drawn layout' final)
    (elsewhere : ∀ edge ∈ drawn, edge.1 < layout.size ∨ edge.1 = exit ∨ layout'.size ≤ edge.1)
    {graph : Graph} {targets : List BlockId}
    (goes : ∀ target, (exit, target) ∈ drawn ↔ target ∈ targets)
    (agrees : AgreesOn graph final layout.size layout'.size) :
    shape graph ⟨layout.size, 0⟩ ⟨exit, (layout'.statements exit).length⟩ ∧
      graph.EndsIn ⟨exit, (layout'.statements exit).length⟩ targets := by
  have exitAgrees := agrees exit body.exit_ge body.exit_lt
  refine ⟨body.laid graph ?_ ?_, exitAgrees.endsIn_of_open later body.exit_lt body.exit_open goes⟩
  · intro id large small notExit
    refine (agrees id large small).before later small ?_
    intro edge edgeMem
    have := elsewhere edge edgeMem
    lia
  · simp [exitAgrees.1, later.statements_eq exit body.exit_lt]

theorem detour {sources : List BlockId} (body : Body around sources layout layout' exit shape)
    {allowed : BlockId → Prop} {drawn : List (BlockId × BlockId)} {final : Layout}
    (later : Grows allowed drawn layout' final)
    (elsewhere : ∀ edge ∈ drawn, edge.1 < layout.size ∨ edge.1 = exit ∨ layout'.size ≤ edge.1)
    {graph : Graph} {join : BlockId} (goes : ∀ target, (exit, target) ∈ drawn ↔ target = join)
    (agrees : AgreesOn graph final layout.size layout'.size) :
    graph.Detour (shape graph) layout.size join :=
  ⟨_, body.laid_and_endsIn later elsewhere (by simpa using goes) agrees⟩

end Body

end Bodies

end Layout

end FlowAnalysis
