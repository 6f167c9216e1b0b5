import FlowAnalysis.Proofs.ControlFlow.Laying

/-!
# Control can always end

From every block of the graph of a program, whether it is reached or not, some path leads to a block
without successors. The construction sees to it region by region: control that is anywhere in a
region can get to the block in which the region goes on, to the target of a jump, or to a block that
nothing leaves. So if control can end wherever the region is left for, it can end from every block
of the region. A loop is left through its head, which is a target of the jumps in its body, and the
handlers of a guarded body are left before the body is.
-/

namespace FlowAnalysis

namespace Graph

variable {graph : Graph} {id successor : BlockId}

/-- Control that is at a block can end. -/
def CanEnd (graph : Graph) (id : BlockId) : Prop :=
  ∃ blocks exit, graph.Path id blocks exit ∧ graph.successors exit = []

theorem CanEnd.step (canEnd : graph.CanEnd successor) (edge : successor ∈ graph.successors id) :
    graph.CanEnd id := by
  rcases canEnd with ⟨blocks, exit, path, isLast⟩
  exact ⟨_, exit, .step edge path, isLast⟩

theorem canEnd_of_leads_nil (leads : graph.Leads id []) : graph.CanEnd id := by
  refine ⟨[id], id, .single id, ?_⟩
  apply List.eq_nil_iff_forall_not_mem.2
  intro target edge
  exact absurd ((leads target).1 edge) List.not_mem_nil

/-- Control that jumps can end. -/
def TargetsEnd (graph : Graph) (around : Surroundings) : Prop :=
  ∀ id, around.IsTarget id → graph.CanEnd id

end Graph

namespace Layout

open Command

variable {around : Surroundings} {layout layout' final : Layout} {graph : Graph}
  {allowed : BlockId → Prop} {drawn : List (BlockId × BlockId)}

theorem Agrees.canEnd {id target : BlockId} (agrees : Agrees graph layout id)
    (edge : (id, target) ∈ layout.edges) (canEnd : graph.CanEnd target) : graph.CanEnd id :=
  canEnd.step ((agrees.2 target).2 edge)

theorem Agrees.kept {id : BlockId} (agrees : Agrees graph layout id) :
    layout.statements id <+: graph.statements id :=
  agrees.1 ▸ List.prefix_refl _

/-- Control can end from every block from one number up to another. -/
def EndsOn (graph : Graph) (low high : BlockId) : Prop :=
  ∀ id, low ≤ id → id < high → graph.CanEnd id

/-- Control can end from every block of a region if it can wherever the region is left for. -/
def Ends (around : Surroundings) (lay : BlockId → StateM Layout BlockId) : Prop :=
  ∀ ⦃layout layout' : Layout⦄ ⦃last next : BlockId⦄, Ready around layout → last < layout.size →
    layout.Open last → (lay last).run layout = (next, layout') →
      ∀ graph, Completes graph layout last layout' next → graph.CanEnd next →
        graph.TargetsEnd around →
          ∀ id, id = last ∨ layout.size ≤ id → id < layout'.size → graph.CanEnd id

/-! ### Commands without bodies -/

theorem ends_place (statement : Node) : Ends around (layCommand around (.place statement)) := by
  intro layout layout' last next ready lastLt lastOpen run graph completes nextEnds targetsEnd
    id inRegion small
  rw [layCommand] at run
  rcases exists_of_run_bind run with ⟨_, middle, appended, run⟩
  rcases of_run_pure run with ⟨rfl, rfl⟩
  rcases of_run_append appended with ⟨sizeEq, -, -, -⟩
  have isLast : id = next := by lia
  exact isLast ▸ nextEnds

theorem ends_jump (jump : Jump) (statement : Node) :
    Ends around (layCommand around (.jump jump statement)) := by
  intro layout layout' last next ready lastLt lastOpen run graph completes nextEnds targetsEnd
    id inRegion small
  have laid := (lays_jump jump statement ready lastLt lastOpen run).2 graph completes
  rcases laid with ⟨-, -, leads⟩
  rw [layCommand] at run
  rcases exists_of_run_bind run with ⟨_, appendedLayout, appended, run⟩
  rcases exists_of_run_bind run with ⟨_, linkedLayout, linked, created⟩
  rcases of_run_append appended with ⟨appendedSize, -, -, -⟩
  have linkedSize : linkedLayout.size = appendedLayout.size := by
    cases targetEq : around.target? jump with
    | none =>
        rw [targetEq] at linked
        rcases of_run_pure linked with ⟨-, rfl⟩
        rfl
    | some target =>
        rw [targetEq] at linked
        rw [size, (of_run_link linked).1, size]
  rcases of_run_newBlock created with ⟨rfl, createdSize, -, -, -⟩
  rcases inRegion with rfl | large
  · cases targetEq : around.target? jump with
    | none =>
        rw [targetEq] at leads
        exact Graph.canEnd_of_leads_nil leads
    | some target =>
        have edge : target ∈ graph.successors id := by
          apply (leads target).2
          rw [targetEq]
          exact List.mem_singleton_self target
        exact (targetsEnd target ⟨jump, targetEq⟩).step edge
  · have isNext : id = linkedLayout.size := by lia
    exact isNext ▸ nextEnds

/-! ### Bodies -/

section Bodies

variable {role bodyRole : BlockRole} {lay : BlockId → StateM Layout BlockId}
  {shape : Graph → Point → Point → Prop} {exit : BlockId}

theorem Ends.layBody {sources : List BlockId} (ends : Ends around lay)
    (lays : Lays around lay shape) (ready : Ready around layout)
    (sourcesLt : ∀ source ∈ sources, source < layout.size)
    (run : (layBody around role sources lay).run layout = (exit, layout'))
    (later : Grows allowed drawn layout' final)
    (elsewhere : ∀ edge ∈ drawn, edge.1 < layout.size ∨ edge.1 = exit ∨ layout'.size ≤ edge.1)
    (agrees : ∀ id, layout.size ≤ id → id < layout'.size → id ≠ exit → Agrees graph final id)
    (exitKept : final.statements exit <+: graph.statements exit) (exitEnds : graph.CanEnd exit)
    (targetsEnd : graph.TargetsEnd around) : EndsOn graph layout.size layout'.size := by
  rcases exists_of_run_bind run with ⟨entry, started, created, run⟩
  rcases exists_of_run_bind run with ⟨bodyExit, laid, layRun, run⟩
  rcases exists_of_run_bind run with ⟨_, linked, linkRun, run⟩
  rcases of_run_pure run with ⟨rfl, rfl⟩
  rcases of_run_newBlock created with ⟨rfl, startedSize, -, -, startedEdges⟩
  have start : Grows (layout.Entered around) [] layout started := .of_newBlock created
  have entryOpen : started.Open layout.size := by
    intro target drawn
    exact ready.inRange.open_size (Nat.le_refl _) target (startedEdges ▸ drawn)
  have startedReady := ready.of_grows start
  have region := (lays startedReady (by lia) entryOpen layRun).1
  have regionSize := region.size_le
  have exitPlace := region.next_eq_or_le
  have exitLt := region.next_lt
  have linking : Grows (fun _ => True) (sources.map fun source => (source, layout.size)) laid
      layout' ∧ layout'.size = laid.size := by
    refine Grows.of_linkAll linkRun ?_ (by lia) trivial
    intro source sourceMem
    have := sourcesLt source sourceMem
    lia
  rcases linking with ⟨linking, sizeEq⟩
  have total := linking.trans (later.mono fun _ _ => trivial)
  have before : ∀ id, layout.size ≤ id → id < laid.size → id ≠ exit → Agrees graph laid id := by
    intro id large small notExit
    refine (agrees id large (by lia) notExit).before total small ?_
    intro edge edgeMem
    rcases List.mem_append.1 edgeMem with entering | drawnLater
    · rcases List.mem_map.1 entering with ⟨source, sourceMem, rfl⟩
      have := sourcesLt source sourceMem
      lia
    · have := elsewhere edge drawnLater
      lia
  rw [total.statements_eq exit exitLt] at exitKept
  intro id large small
  refine ends startedReady (by lia) entryOpen layRun graph ⟨?_, exitKept⟩ exitEnds targetsEnd
    id (by lia) (by lia)
  intro id inBody small notExit
  exact before id (by lia) small notExit

theorem Ends.headed {nodes : List Node} {source header : BlockId} {created linked : Layout}
    {result : Unit} (ends : Ends around lay) (lays : Lays around lay shape)
    (ready : Ready around layout) (sourceLt : source < layout.size)
    (createRun : (newBlock around role nodes).run layout = (header, created))
    (linkRun : (link source header).run created = (result, linked))
    (bodyRun : (Layout.layBody around bodyRole [header] lay).run linked = (exit, layout'))
    (later : Grows allowed drawn layout' final)
    (elsewhere : ∀ edge ∈ drawn, edge.1 ≤ layout.size ∨ edge.1 = exit ∨ layout'.size ≤ edge.1)
    (agrees : ∀ id, layout.size ≤ id → id < layout'.size → id ≠ exit → Agrees graph final id)
    (exitKept : final.statements exit <+: graph.statements exit) (exitEnds : graph.CanEnd exit)
    (targetsEnd : graph.TargetsEnd around) : EndsOn graph layout.size layout'.size := by
  rcases of_run_headed lays ready sourceLt createRun linkRun bodyRun with ⟨rfl, headed⟩
  have sizeEq := headed.size_eq
  have bodySize := headed.body.grows.size_le
  have exitLt := headed.body.exit_lt
  have exitGe := headed.body.exit_ge
  have creating : Grows (fun _ => True) [] layout created := .of_newBlock createRun
  have createdSize := (of_run_newBlock createRun).2.1
  have linking : Grows (fun _ => True) [(source, layout.size)] created linked :=
    .of_link linkRun (by lia) (by lia) trivial
  have bodyEnds : EndsOn graph linked.size layout'.size := by
    refine ends.layBody lays ((ready.of_grows creating).of_grows linking) (by simp; lia) bodyRun
      later ?_ (fun id large => agrees id (by lia)) exitKept exitEnds targetsEnd
    intro edge edgeMem
    have := elsewhere edge edgeMem
    lia
  intro id large small
  by_cases isHeader : id = layout.size
  · subst isHeader
    have entering : (layout.size, linked.size) ∈ layout'.edges := by
      rw [headed.body.grows.mem_edges _ (by lia)]
      simp
    refine (agrees _ large small (by lia)).canEnd ?_ (bodyEnds linked.size (Nat.le_refl _) (by lia))
    rw [later.mem_edges _ (by lia)]
    exact .inl entering
  · exact bodyEnds id (by lia) small

theorem Ends.layBetween {sources : List BlockId} {body : List Command} {target : BlockId}
    {result : Unit} (ends : Ends around lay) (lays : Lays around lay shape)
    (ready : Ready around layout) (sourcesLt : ∀ source ∈ sources, source < layout.size)
    (targetLt : target < layout.size)
    (run : (layBetween around role sources body lay target).run layout = (result, layout'))
    (agrees : AgreesOn graph layout' layout.size layout'.size) (targetEnds : graph.CanEnd target)
    (targetsEnd : graph.TargetsEnd around) :
    EndsOn graph layout.size layout'.size ∧
      ∀ source ∈ sources, ∃ entry, (source, entry) ∈ layout'.edges ∧ graph.CanEnd entry := by
  rw [Layout.layBetween] at run
  by_cases empty : body.isEmpty
  · rw [if_pos empty] at run
    have linking : Grows (fun _ => True) (sources.map fun source => (source, target)) layout
        layout' ∧ layout'.size = layout.size := Grows.of_linkAll run sourcesLt targetLt trivial
    rcases linking with ⟨linking, sizeEq⟩
    refine ⟨fun id large small => by lia, ?_⟩
    intro source sourceMem
    refine ⟨target, ?_, targetEnds⟩
    rw [linking.mem_edges source (sourcesLt source sourceMem)]
    exact .inr (List.mem_map.2 ⟨source, sourceMem, rfl⟩)
  · rw [if_neg empty] at run
    rcases exists_of_run_bind run with ⟨exit, laid, bodyRun, linkRun⟩
    have body := of_run_layBody lays ready sourcesLt bodyRun
    have exitGe := body.exit_ge
    have exitLt := body.exit_lt
    have laidSize := body.grows.size_le
    have linking : Grows (fun _ => True) [(exit, target)] laid layout' :=
      .of_link linkRun exitLt (by lia) trivial
    have linkedSize : layout'.size = laid.size := by
      rw [size, (of_run_link linkRun).1, size]
    have leaving : (exit, target) ∈ layout'.edges := by
      rw [linking.mem_edges exit exitLt]
      simp
    have exitEnds : graph.CanEnd exit :=
      (agrees exit exitGe (by lia)).canEnd leaving targetEnds
    have bodyEnds : EndsOn graph layout.size laid.size :=
      ends.layBody lays ready sourcesLt bodyRun linking (by simp)
        (fun id large small _ => agrees id large (by lia)) (agrees exit exitGe (by lia)).kept
        exitEnds targetsEnd
    refine ⟨fun id large small => bodyEnds id large (by lia), ?_⟩
    intro source sourceMem
    have sourceLt := sourcesLt source sourceMem
    refine ⟨layout.size, ?_, bodyEnds _ (Nat.le_refl _) (by lia)⟩
    rw [linking.mem_edges source (by lia), body.grows.mem_edges source sourceLt]
    exact .inl (.inr (List.mem_map.2 ⟨source, sourceMem, rfl⟩))

theorem Ends.layOptional {source : BlockId} {body : List Command} (ends : Ends around lay)
    (lays : Lays around lay shape) (ready : Ready around layout) (sourceLt : source < layout.size)
    (run : (layOptional around role source body lay).run layout = (exit, layout'))
    (later : Grows allowed drawn layout' final)
    (elsewhere : ∀ edge ∈ drawn, edge.1 < layout.size ∨ edge.1 = exit ∨ layout'.size ≤ edge.1)
    (agrees : AgreesOn graph final layout.size layout'.size) (exitEnds : graph.CanEnd exit)
    (targetsEnd : graph.TargetsEnd around) :
    EndsOn graph layout.size layout'.size ∧
      (exit = source ∨ ∃ entry, (source, entry) ∈ layout'.edges ∧ graph.CanEnd entry) := by
  rw [Layout.layOptional] at run
  by_cases empty : body.isEmpty
  · rw [if_pos empty] at run
    rcases of_run_pure run with ⟨rfl, rfl⟩
    exact ⟨fun id large small => by lia, .inl rfl⟩
  · rw [if_neg empty] at run
    have sourcesLt : ∀ id ∈ [source], id < layout.size := by simpa using sourceLt
    have body := of_run_layBody lays ready sourcesLt run
    have exitGe := body.exit_ge
    have exitLt := body.exit_lt
    have bodyEnds : EndsOn graph layout.size layout'.size := by
      refine ends.layBody lays ready sourcesLt run later elsewhere
        (fun id large small _ => agrees id large small) ?_ exitEnds targetsEnd
      exact (agrees exit exitGe exitLt).kept
    refine ⟨bodyEnds, .inr ⟨layout.size, ?_, bodyEnds _ (Nat.le_refl _) (by lia)⟩⟩
    rw [body.grows.mem_edges source sourceLt]
    simp

end Bodies

/-! ### Conditionals -/

/-- From every block of what comes after a condition that does not hold, control can end if it can
end from the join. -/
def EndsAlternatives (around : Surroundings) (rest : Alternatives) : Prop :=
  ∀ ⦃layout layout' : Layout⦄ ⦃condBlock join : BlockId⦄ ⦃result : Unit⦄, Ready around layout →
    condBlock < layout.size → join < layout.size →
      (layAlternatives around rest condBlock join).run layout = (result, layout') →
        ∀ graph, AgreesOn graph layout' layout.size layout'.size → graph.CanEnd join →
          graph.TargetsEnd around → EndsOn graph layout.size layout'.size

theorem endsAlternatives_none : EndsAlternatives around .none := by
  intro layout layout' condBlock join result ready condLt joinLt run graph agrees joinEnds
    targetsEnd
  rw [layAlternatives] at run
  have sizeEq : layout'.size = layout.size := by
    rw [size, (of_run_link run).1, size]
  intro id large small
  lia

theorem endsAlternatives_otherwise {header : Node} {body : List Command}
    (bodyEnds : Ends around (layCommands around body)) :
    EndsAlternatives around (.otherwise header body) := by
  intro layout layout' condBlock join result ready condLt joinLt run graph agrees joinEnds
    targetsEnd
  have bodyLays := layCommands_lays around body
  rw [layAlternatives] at run
  rcases exists_of_run_bind run with ⟨headerBlock, created, createRun, run⟩
  rcases exists_of_run_bind run with ⟨_, linked, linkRun, run⟩
  rcases exists_of_run_bind run with ⟨bodyExit, laid, bodyRun, joinRun⟩
  have headed := (of_run_headed bodyLays ready condLt createRun linkRun bodyRun).2
  have exitLt := headed.body.exit_lt
  have exitGe := headed.body.exit_ge
  have sizeEq := headed.size_eq
  have laidSize := headed.grows.size_le
  have joining : Grows (fun _ => True) [(bodyExit, join)] laid layout' :=
    .of_link joinRun exitLt (by lia) trivial
  have joinedSize : layout'.size = laid.size := by
    rw [size, (of_run_link joinRun).1, size]
  have exitEnds : graph.CanEnd bodyExit := by
    refine (agrees bodyExit (by lia) (by lia)).canEnd ?_ joinEnds
    rw [joining.mem_edges bodyExit exitLt]
    simp
  rw [joinedSize]
  exact bodyEnds.headed bodyLays ready condLt createRun linkRun bodyRun joining (by simp)
    (fun id large small _ => agrees id large (by lia)) (agrees bodyExit (by lia) (by lia)).kept
    exitEnds targetsEnd

theorem endsAlternatives_further {cond : Node} {body : List Command} {rest : Alternatives}
    (bodyEnds : Ends around (layCommands around body)) (restEnds : EndsAlternatives around rest) :
    EndsAlternatives around (.further cond body rest) := by
  intro layout layout' condBlock join result ready condLt joinLt run graph agrees joinEnds
    targetsEnd
  have bodyLays := layCommands_lays around body
  rw [layAlternatives] at run
  rcases exists_of_run_bind run with ⟨furtherBlock, created, createRun, run⟩
  rcases exists_of_run_bind run with ⟨_, linked, linkRun, run⟩
  rcases exists_of_run_bind run with ⟨bodyExit, laid, bodyRun, run⟩
  rcases exists_of_run_bind run with ⟨_, joined, joinRun, restRun⟩
  rcases of_run_headed bodyLays ready condLt createRun linkRun bodyRun with ⟨rfl, headed⟩
  have exitLt := headed.body.exit_lt
  have exitGe := headed.body.exit_ge
  have sizeEq := headed.size_eq
  have laidSize := headed.grows.size_le
  have joining : Grows (fun _ => True) [(bodyExit, join)] laid joined :=
    .of_link joinRun exitLt (by lia) trivial
  have joinedSize : joined.size = laid.size := by
    rw [size, (of_run_link joinRun).1, size]
  have joinedReady := (ready.of_grows headed.grows).of_grows joining
  rcases layAlternatives_lays around rest joinedReady (by lia) (by lia) restRun with
    ⟨restEntry, restGrows, -, -⟩
  have finalSize := restGrows.size_le
  have entering : Grows (fun _ => True) [(layout.size, restEntry)] joined layout' :=
    restGrows.mono fun _ _ => trivial
  have later := joining.trans entering
  have exitEnds : graph.CanEnd bodyExit := by
    refine (agrees bodyExit (by lia) (by lia)).canEnd ?_ joinEnds
    rw [later.mem_edges bodyExit exitLt]
    simp
  have firstEnds : EndsOn graph layout.size laid.size :=
    bodyEnds.headed bodyLays ready condLt createRun linkRun bodyRun later (by simp)
      (fun id large small _ => agrees id large (by lia)) (agrees bodyExit (by lia) (by lia)).kept
      exitEnds targetsEnd
  have secondEnds : EndsOn graph joined.size layout'.size :=
    restEnds joinedReady (by lia) (by lia) restRun graph
      (fun id large small => agrees id (by lia) small) joinEnds targetsEnd
  intro id large small
  by_cases early : id < laid.size
  · exact firstEnds id large early
  · exact secondEnds id (by lia) small

theorem ends_branch {cond : Node} {body : List Command} {rest : Alternatives}
    (bodyEnds : Ends around (layCommands around body)) (restEnds : EndsAlternatives around rest) :
    Ends around (layCommand around (.branch cond body rest)) := by
  intro layout layout' last next ready lastLt lastOpen run graph completes nextEnds targetsEnd
  have bodyLays := layCommands_lays around body
  rw [layCommand] at run
  rcases exists_of_run_bind run with ⟨condBlock, created, createRun, run⟩
  rcases exists_of_run_bind run with ⟨_, linked, linkRun, run⟩
  rcases exists_of_run_bind run with ⟨bodyExit, laid, bodyRun, run⟩
  rcases exists_of_run_bind run with ⟨join, prepared, prepareRun, run⟩
  rcases exists_of_run_bind run with ⟨_, joined, joinRun, run⟩
  rcases exists_of_run_bind run with ⟨_, done, restRun, pureRun⟩
  rcases of_run_pure pureRun with ⟨rfl, rfl⟩
  rcases of_run_headed bodyLays ready lastLt createRun linkRun bodyRun with ⟨rfl, headed⟩
  rcases of_run_newBlock prepareRun with ⟨rfl, preparedSize, -, -, -⟩
  have exitLt := headed.body.exit_lt
  have exitGe := headed.body.exit_ge
  have sizeEq := headed.size_eq
  have laidSize := headed.grows.size_le
  have preparing : Grows (fun _ => True) [] laid prepared := .of_newBlock prepareRun
  have joining : Grows (fun _ => True) [(bodyExit, laid.size)] prepared joined :=
    .of_link joinRun (by lia) (by lia) trivial
  have joinedSize : joined.size = prepared.size := by
    rw [size, (of_run_link joinRun).1, size]
  have joinedReady := ((ready.of_grows headed.grows).of_grows preparing).of_grows joining
  rcases layAlternatives_lays around rest joinedReady (by lia) (by lia) restRun with
    ⟨restEntry, restGrows, -, -⟩
  have finalSize := restGrows.size_le
  have entering : Grows (fun _ => True) [(layout.size, restEntry)] joined layout' :=
    restGrows.mono fun _ _ => trivial
  have later := preparing.trans (joining.trans entering)
  have total := (headed.grows.mono fun _ _ => trivial).trans later
  have agrees : ∀ id, id = last ∨ layout.size ≤ id → id < layout'.size → id ≠ laid.size →
      Agrees graph layout' id := completes.agrees
  have exitEnds : graph.CanEnd bodyExit := by
    refine (agrees bodyExit (by lia) (by lia) (by lia)).canEnd ?_ nextEnds
    rw [later.mem_edges bodyExit exitLt]
    simp
  have firstEnds : EndsOn graph layout.size laid.size :=
    bodyEnds.headed bodyLays ready lastLt createRun linkRun bodyRun later (by simp)
      (fun id large small _ => agrees id (.inr large) (by lia) (by lia))
      (agrees bodyExit (by lia) (by lia) (by lia)).kept exitEnds targetsEnd
  have secondEnds : EndsOn graph joined.size layout'.size :=
    restEnds joinedReady (by lia) (by lia) restRun graph
      (fun id large small => agrees id (by lia) small (by lia)) nextEnds targetsEnd
  have lastEnds : graph.CanEnd last := by
    refine (agrees last (.inl rfl) (by lia) (by lia)).canEnd ?_
      (firstEnds layout.size (Nat.le_refl _) (by lia))
    rw [total.mem_edges last lastLt]
    simp
  intro id inRegion small
  rcases inRegion with rfl | large
  · exact lastEnds
  · rcases Nat.lt_trichotomy id laid.size with early | isJoin | late
    · exact firstEnds id large early
    · exact isJoin ▸ nextEnds
    · exact secondEnds id (by lia) small

theorem ends_bracket {bindings : List Node} {body : List Command}
    (bodyEnds : Ends around (layCommands around body)) :
    Ends around (layCommand around (.bracket bindings body)) := by
  intro layout layout' last next ready lastLt lastOpen run graph completes nextEnds targetsEnd
  have bodyLays := layCommands_lays around body
  rw [layCommand] at run
  rcases exists_of_run_bind run with ⟨bindingBlock, created, createRun, run⟩
  rcases exists_of_run_bind run with ⟨_, linked, linkRun, bodyRun⟩
  have headed := (of_run_headed bodyLays ready lastLt createRun linkRun bodyRun).2
  have sizeEq := headed.size_eq
  have exitGe := headed.body.exit_ge
  have exitLt := headed.body.exit_lt
  have unchanged : Grows (fun _ => True) [] layout' layout' := .refl layout'
  have blocksEnd : EndsOn graph layout.size layout'.size :=
    bodyEnds.headed bodyLays ready lastLt createRun linkRun bodyRun unchanged (by simp)
      (fun id large => completes.agrees id (.inr large)) completes.next_statements nextEnds
      targetsEnd
  intro id inRegion small
  rcases inRegion with rfl | large
  · refine (completes.agrees id (.inl rfl) small (by lia)).canEnd ?_
      (blocksEnd layout.size (Nat.le_refl _) (by lia))
    rw [headed.grows.mem_edges id lastLt]
    simp
  · exact blocksEnd id large small

/-! ### Loops -/

theorem ends_loop {kind : LoopKind} {head : Node} {bound : List Node} {body orelse : List Command}
    (bodyEnds : ∀ inside, Ends inside (layCommands inside body))
    (orelseEnds : Ends around (layCommands around orelse)) :
    Ends around (layCommand around (.loop kind head bound body orelse)) := by
  intro layout layout' last next ready lastLt lastOpen run graph completes nextEnds targetsEnd
  rw [layCommand] at run
  rcases exists_of_run_bind run with ⟨headBlock, created, createRun, run⟩
  rcases exists_of_run_bind run with ⟨_, linked, linkRun, run⟩
  rcases exists_of_run_bind run with ⟨join, prepared, prepareRun, run⟩
  rcases exists_of_run_bind run with ⟨bodyExit, laid, bodyRun, run⟩
  rcases exists_of_run_bind run with ⟨_, looped, loopRun, run⟩
  rcases exists_of_run_bind run with ⟨_, done, elseRun, pureRun⟩
  rcases of_run_pure pureRun with ⟨rfl, rfl⟩
  rcases of_run_newBlock createRun with ⟨rfl, createdSize, -, -, -⟩
  rcases of_run_newBlock prepareRun with ⟨rfl, preparedSize, -, -, -⟩
  have linkedSize : linked.size = created.size := by
    rw [size, (of_run_link linkRun).1, size]
  have creating : Grows (fun _ => True) [] layout created := .of_newBlock createRun
  have linking : Grows (fun _ => True) [(last, layout.size)] created linked :=
    .of_link linkRun (by lia) (by lia) trivial
  have preparing : Grows (fun _ => True) [] linked prepared := .of_newBlock prepareRun
  have preparedReady := ((ready.of_grows creating).of_grows linking).of_grows preparing
  have insideReady : Ready (around.insideLoop ⟨layout.size, linked.size⟩ bound) prepared := by
    refine ⟨preparedReady.inRange, ?_⟩
    intro id isTarget
    rcases of_isTarget_insideLoop isTarget with isHead | isJoin | outer
    · lia
    · lia
    · exact preparedReady.target_lt id outer
  have bodyLaid := of_run_layBody (layCommands_lays _ body) insideReady (by simp; lia) bodyRun
  have exitGe := bodyLaid.exit_ge
  have exitLt := bodyLaid.exit_lt
  have laidSize := bodyLaid.grows.size_le
  have entering : Grows (fun _ => True) _ _ _ := bodyLaid.grows.mono fun _ _ => trivial
  have looping : Grows (fun _ => True) [(bodyExit, layout.size)] laid looped :=
    .of_link loopRun exitLt (by lia) trivial
  have loopedSize : looped.size = laid.size := by
    rw [size, (of_run_link loopRun).1, size]
  have loopedReady := (preparedReady.of_grows entering).of_grows looping
  rcases of_run_layBetween (layCommands_lays around orelse) loopedReady (by simp; lia) (by lia)
    elseRun with ⟨elseEntry, elseGrows, -, -⟩
  have leaving : Grows (fun _ => True) _ _ _ := elseGrows.mono fun _ _ => trivial
  have finalSize := leaving.size_le
  have later := looping.trans leaving
  have total := creating.trans (linking.trans (preparing.trans (entering.trans later)))
  have agrees : ∀ id, id = last ∨ layout.size ≤ id → id < layout'.size → id ≠ linked.size →
      Agrees graph layout' id := completes.agrees
  rcases orelseEnds.layBetween (layCommands_lays around orelse) loopedReady (by simp; lia) (by lia)
    elseRun (fun id large small => agrees id (by lia) small (by lia)) nextEnds targetsEnd with
    ⟨elseEnds, leaves⟩
  have headEnds : graph.CanEnd layout.size := by
    rcases leaves layout.size (by simp) with ⟨entry, edge, entryEnds⟩
    exact (agrees layout.size (by lia) (by lia) (by lia)).canEnd edge entryEnds
  have insideEnd : graph.TargetsEnd (around.insideLoop ⟨layout.size, linked.size⟩ bound) := by
    intro id isTarget
    rcases of_isTarget_insideLoop isTarget with rfl | rfl | outer
    · exact headEnds
    · exact nextEnds
    · exact targetsEnd id outer
  have exitEnds : graph.CanEnd bodyExit := by
    refine (agrees bodyExit (by lia) (by lia) (by lia)).canEnd ?_ headEnds
    rw [later.mem_edges bodyExit exitLt]
    simp
  have blocksEnd : EndsOn graph prepared.size laid.size :=
    (bodyEnds _).layBody (layCommands_lays _ body) insideReady (by simp; lia) bodyRun later
      (by simp; lia) (fun id large small _ => agrees id (by lia) (by lia) (by lia))
      (agrees bodyExit (by lia) (by lia) (by lia)).kept exitEnds insideEnd
  have lastEnds : graph.CanEnd last := by
    refine (agrees last (.inl rfl) (by lia) (by lia)).canEnd ?_ headEnds
    rw [total.mem_edges last lastLt]
    simp
  intro id inRegion small
  rcases inRegion with rfl | large
  · exact lastEnds
  · by_cases isHead : id = layout.size
    · exact isHead ▸ headEnds
    · by_cases isJoin : id = linked.size
      · exact isJoin ▸ nextEnds
      · by_cases inBody : id < laid.size
        · exact blocksEnd id (by lia) inBody
        · exact elseEnds id (by lia) small

/-! ### Guarded bodies -/

/-- From every block of some handlers control can end if it can from where they are left, and so it
can from the blocks that dispatch them. -/
def EndsHandlers (around : Surroundings) (handlers : List (List Command)) : Prop :=
  ∀ ⦃layout layout' final : Layout⦄ ⦃dispatches exits : List BlockId⦄ ⦃allowed : BlockId → Prop⦄
    ⦃drawn : List (BlockId × BlockId)⦄ ⦃graph : Graph⦄, Ready around layout →
    (∀ dispatch ∈ dispatches, dispatch < layout.size) →
      (layHandlers around dispatches handlers).run layout = (exits, layout') →
        Grows allowed drawn layout' final →
        (∀ edge ∈ drawn, edge.1 < layout.size ∨ edge.1 ∈ exits ∨ layout'.size ≤ edge.1) →
        AgreesOn graph final layout.size layout'.size → (∀ exit ∈ exits, graph.CanEnd exit) →
        graph.TargetsEnd around →
          EndsOn graph layout.size layout'.size ∧
            (handlers ≠ [] → ∀ dispatch ∈ dispatches,
              ∃ entry, (dispatch, entry) ∈ layout'.edges ∧ graph.CanEnd entry)

theorem endsHandlers_nil : EndsHandlers around [] := by
  intro layout layout' final dispatches exits allowed drawn graph ready dispatchesLt run later
    elsewhere agrees exitsEnd targetsEnd
  rw [layHandlers] at run
  rcases of_run_pure run with ⟨rfl, rfl⟩
  exact ⟨fun id large small => by lia, fun some => absurd rfl some⟩

theorem endsHandlers_cons {handler : List Command} {rest : List (List Command)}
    (handlerEnds : Ends around (layCommands around handler)) (restEnds : EndsHandlers around rest) :
    EndsHandlers around (handler :: rest) := by
  intro layout layout' final dispatches exits allowed drawn graph ready dispatchesLt run later
    elsewhere agrees exitsEnd targetsEnd
  have handlerLays := layCommands_lays around handler
  rw [layHandlers] at run
  rcases exists_of_run_bind run with ⟨handlerExit, laid, handlerRun, run⟩
  rcases exists_of_run_bind run with ⟨restExits, done, restRun, pureRun⟩
  rcases of_run_pure pureRun with ⟨rfl, rfl⟩
  have body := of_run_layBody handlerLays ready dispatchesLt handlerRun
  have laidSize := body.grows.size_le
  have exitGe := body.exit_ge
  have exitLt := body.exit_lt
  have laidReady := ready.of_grows body.grows
  have laidDispatches : ∀ dispatch ∈ dispatches, dispatch < laid.size := by
    intro dispatch dispatchMem
    have := dispatchesLt dispatch dispatchMem
    lia
  rcases layHandlers_lays around rest laidReady laidDispatches restRun with
    ⟨entries, restGrows, restExitsPlace, -⟩
  have finalSize := restGrows.size_le
  have total : Grows (fun _ => True) _ _ _ :=
    (restGrows.mono fun _ _ => trivial).trans (later.mono fun _ _ => trivial)
  have handlerBlocksEnd : EndsOn graph layout.size laid.size := by
    refine handlerEnds.layBody handlerLays ready dispatchesLt handlerRun
      total ?_ (fun id large small _ => agrees id large (by lia))
      (agrees handlerExit exitGe (by lia)).kept (exitsEnd handlerExit (by simp)) targetsEnd
    intro edge edgeMem
    rcases List.mem_append.1 edgeMem with dispatched | drawnLater
    · simp only [List.mem_flatMap, List.mem_map] at dispatched
      rcases dispatched with ⟨entry, -, dispatch, dispatchMem, rfl⟩
      exact .inl (dispatchesLt dispatch dispatchMem)
    · rcases elsewhere edge drawnLater with old | isExit | new
      · exact .inl old
      · rcases List.mem_cons.1 isExit with isHandler | isRest
        · exact .inr (.inl isHandler)
        · exact .inr (.inr (restExitsPlace _ isRest).1)
      · exact .inr (.inr (by lia))
  have restBlocksEnd : EndsOn graph laid.size layout'.size := by
    refine (restEnds laidReady laidDispatches restRun later ?_ ?_ ?_ targetsEnd).1
    · intro edge edgeMem
      rcases elsewhere edge edgeMem with old | isExit | new
      · exact .inl (by lia)
      · rcases List.mem_cons.1 isExit with isHandler | isRest
        · exact .inl (by lia)
        · exact .inr (.inl isRest)
      · exact .inr (.inr new)
    · exact fun id large small => agrees id (by lia) small
    · exact fun exit exitMem => exitsEnd exit (List.mem_cons_of_mem _ exitMem)
  refine ⟨?_, ?_⟩
  · intro id large small
    by_cases early : id < laid.size
    · exact handlerBlocksEnd id large early
    · exact restBlocksEnd id (by lia) small
  · intro _ dispatch dispatchMem
    have dispatchLt := dispatchesLt dispatch dispatchMem
    refine ⟨layout.size, ?_, handlerBlocksEnd _ (Nat.le_refl _) (by lia)⟩
    rw [restGrows.mem_edges dispatch (by lia), body.grows.mem_edges dispatch dispatchLt]
    exact .inl (.inr (List.mem_map.2 ⟨dispatch, dispatchMem, rfl⟩))

theorem ends_guarded {body : List Command} {handlers : List (List Command)}
    {orelse finalbody : List Command} (bodyEnds : ∀ inside, Ends inside (layCommands inside body))
    (handlersEnd : EndsHandlers around handlers)
    (orelseEnds : Ends around (layCommands around orelse))
    (finalEnds : Ends around (layCommands around finalbody)) :
    Ends around (layCommand around (.guarded body handlers orelse finalbody)) := by
  intro layout layout' last next ready lastLt lastOpen run graph completes nextEnds targetsEnd
  rcases of_run_guarded (fun inside => layCommands_lays inside body)
    (layHandlers_lays around handlers) (layCommands_lays around orelse)
    (layCommands_lays around finalbody) ready lastLt lastOpen run with ⟨rfl, stages, runs⟩
  have sizes := stages.sizes
  have createdSize := stages.created_size
  have normalPlace := stages.normal_place
  have normalLt := stages.normal_lt
  have exitGe := stages.exit_ge
  have exitLt := stages.exit_lt
  have dispatchedReady := (ready.of_grows stages.creating).of_grows stages.dispatching
  have handledReady := dispatchedReady.of_grows stages.handling
  have caughtReady := (handledReady.of_grows stages.entering).of_grows stages.catching
  have elsedReady := caughtReady.of_grows stages.elsing
  have dispatchesLt : ∀ dispatch ∈ stages.dispatch?.toList, dispatch < stages.dispatched.size :=
    fun dispatch dispatchMem => (stages.dispatch_place _ (Option.mem_toList.1 dispatchMem)).2
  have insideReady : Ready (around.guardedBy (stages.dispatch?.getD around.handler))
      stages.handled := by
    refine ⟨handledReady.inRange, ?_⟩
    intro id isTarget
    rcases of_isTarget_guardedBy isTarget with dispatch | outer
    · have := stages.dispatch_place id dispatch
      lia
    · exact handledReady.target_lt id outer
  have agrees : ∀ id, id = last ∨ layout.size ≤ id → id < layout'.size → id ≠ layout.size →
      Agrees graph layout' id := completes.agrees
  have exitsLt : ∀ exit ∈ stages.exits, exit < stages.elsed.size := by
    intro exit exitMem
    rcases (stages.mem_exits exit).1 exitMem with rfl | isHandler
    · exact normalLt
    · have := stages.handlerExit_place exit isHandler
      lia
  rcases finalEnds.layBetween (layCommands_lays around finalbody) elsedReady exitsLt (by lia)
    runs.finalRun (fun id large small => agrees id (by lia) small (by lia)) nextEnds targetsEnd with
    ⟨finalBlocksEnd, leaves⟩
  have leavesEnd : ∀ exit ∈ stages.exits, layout.size < exit → graph.CanEnd exit := by
    intro exit exitMem large
    rcases leaves exit exitMem with ⟨entry, edge, entryEnds⟩
    have := exitsLt exit exitMem
    exact (agrees exit (by lia) (by lia) (by lia)).canEnd edge entryEnds
  have handlerExitsEnd : ∀ exit ∈ stages.handlerExits, graph.CanEnd exit := by
    intro exit isHandler
    have place := stages.handlerExit_place exit isHandler
    exact leavesEnd exit ((stages.mem_exits exit).2 (.inr isHandler)) (by lia)
  have normalEnds : graph.CanEnd stages.normalExit :=
    leavesEnd stages.normalExit ((stages.mem_exits _).2 (.inl rfl)) (by lia)
  rcases handlersEnd dispatchedReady dispatchesLt runs.handlersRun stages.growsAfterHandlers
    (fun edge => stages.drawnAfterHandlers_from)
    (fun id large small => agrees id (by lia) (by lia) (by lia)) handlerExitsEnd targetsEnd with
    ⟨handlerBlocksEnd, dispatches⟩
  have dispatchEnds : ∀ dispatch ∈ stages.dispatch?, graph.CanEnd dispatch := by
    intro dispatch isDispatch
    have place := stages.dispatch_place dispatch isDispatch
    have someHandler : handlers ≠ [] := by
      intro noHandlers
      rw [runs.noHandlers.2 noHandlers] at isDispatch
      cases isDispatch
    rcases dispatches someHandler dispatch (Option.mem_toList.2 isDispatch) with
      ⟨entry, edge, entryEnds⟩
    refine (agrees dispatch (by lia) (by lia) (by lia)).canEnd ?_ entryEnds
    rw [stages.growsAfterHandlers.mem_edges dispatch (by lia)]
    exact .inl edge
  have insideEnd :
      graph.TargetsEnd (around.guardedBy (stages.dispatch?.getD around.handler)) := by
    intro id isTarget
    rcases of_isTarget_guardedBy isTarget with isDispatch | outer
    · exact dispatchEnds id isDispatch
    · exact targetsEnd id outer
  have leavingFrom : ∀ edge ∈ stages.exits.map fun exit => (exit, stages.lastEntry),
      edge.1 = stages.normalExit ∨ edge.1 < stages.handled.size := by
    intro edge edgeMem
    rcases (stages.mem_leaving.1 edgeMem).1 with isNormal | isHandler
    · exact .inl isNormal
    · exact .inr (stages.handlerExit_place _ isHandler).2
  rcases orelseEnds.layOptional (layCommands_lays around orelse) caughtReady (by lia) runs.elseRun
    stages.leaving
    (fun edge edgeMem => by
      have := leavingFrom edge edgeMem
      lia)
    (fun id large small => agrees id (by lia) (by lia) (by lia)) normalEnds targetsEnd with
    ⟨elseBlocksEnd, continues⟩
  have exitEnds : graph.CanEnd stages.bodyExit := by
    rcases continues with isNormal | ⟨entry, edge, entryEnds⟩
    · exact isNormal ▸ normalEnds
    · refine (agrees stages.bodyExit (by lia) (by lia) (by lia)).canEnd ?_ entryEnds
      rw [stages.leaving.mem_edges stages.bodyExit (by lia)]
      exact .inl edge
  have bodyBlocksEnd : EndsOn graph stages.handled.size stages.laid.size := by
    refine (bodyEnds _).layBody (layCommands_lays _ body) insideReady (by simp; lia) runs.bodyRun
      stages.growsAfterBody ?_ (fun id large small _ => agrees id (by lia) (by lia) (by lia))
      (agrees stages.bodyExit (by lia) (by lia) (by lia)).kept exitEnds insideEnd
    intro edge edgeMem
    rcases stages.drawnAfterBody_from edgeMem with isExit | isNormal | isHandler
    · exact .inr (.inl isExit)
    · lia
    · exact .inl (stages.handlerExit_place _ isHandler).2
  have lastEnds : graph.CanEnd last := by
    refine (agrees last (.inl rfl) (by lia) (by lia)).canEnd ?_
      (bodyBlocksEnd stages.handled.size (Nat.le_refl _) (by lia))
    rw [stages.growsAfterHandlers.mem_edges last (by lia)]
    exact .inr (stages.mem_drawnAfterHandlers.2 (.inl ⟨rfl, rfl⟩))
  intro id inRegion small
  rcases inRegion with rfl | large
  · exact lastEnds
  · have caughtSize := stages.caught_size
    by_cases isJoin : id = layout.size
    · exact isJoin ▸ nextEnds
    by_cases isDispatch : id < stages.dispatched.size
    · exact dispatchEnds id (stages.mem_dispatch? id (by lia) isDispatch)
    by_cases inHandlers : id < stages.handled.size
    · exact handlerBlocksEnd id (by lia) inHandlers
    by_cases inBody : id < stages.laid.size
    · exact bodyBlocksEnd id (by lia) inBody
    by_cases inElse : id < stages.elsed.size
    · exact elseBlocksEnd id (by lia) inElse
    · exact finalBlocksEnd id (by lia) small

/-! ### All commands -/

theorem ends_nil : Ends around (layCommands around []) := by
  intro layout layout' last next ready lastLt lastOpen run graph completes nextEnds targetsEnd
    id inRegion small
  rw [layCommands] at run
  rcases of_run_pure run with ⟨rfl, rfl⟩
  have isNext : id = next := by lia
  exact isNext ▸ nextEnds

theorem ends_cons {command : Command} {rest : List Command}
    (commandEnds : Ends around (layCommand around command))
    (restEnds : Ends around (layCommands around rest)) :
    Ends around (layCommands around (command :: rest)) := by
  intro layout layout' last next ready lastLt lastOpen run graph completes nextEnds targetsEnd
    id inRegion small
  rw [layCommands] at run
  rcases exists_of_run_bind run with ⟨between, middle, commandRun, restRun⟩
  have first := (layCommand_lays around command ready lastLt lastOpen commandRun).1
  have firstSize := first.size_le
  have firstPlace := first.next_eq_or_le
  have middleReady : Ready around middle := by
    refine ⟨first.inRange, ?_⟩
    intro id isTarget
    have := ready.target_lt id isTarget
    lia
  have second :=
    (layCommands_lays around rest middleReady first.next_lt first.next_open restRun).1
  have secondEnds : ∀ id, id = between ∨ middle.size ≤ id → id < layout'.size → graph.CanEnd id :=
    restEnds middleReady first.next_lt first.next_open restRun graph (completes.after first)
      nextEnds targetsEnd
  have secondSize := second.size_le
  have betweenEnds : graph.CanEnd between :=
    secondEnds between (.inl rfl) (by have := first.next_lt; lia)
  by_cases early : id < middle.size
  · exact commandEnds ready lastLt lastOpen commandRun graph (completes.before first second)
      betweenEnds targetsEnd id inRegion early
  · exact secondEnds id (by lia) small

mutual

/-- From every block of a command control can end, if it can wherever the command is left for. -/
theorem layCommand_ends (around : Surroundings) : (command : Command) →
    Ends around (layCommand around command)
  | .place statement => ends_place statement
  | .jump target statement => ends_jump target statement
  | .branch _ body rest =>
      ends_branch (layCommands_ends around body) (layAlternatives_ends around rest)
  | .loop _ _ _ body orelse =>
      ends_loop (fun inside => layCommands_ends inside body) (layCommands_ends around orelse)
  | .bracket _ body => ends_bracket (layCommands_ends around body)
  | .guarded body handlers orelse finalbody =>
      ends_guarded (fun inside => layCommands_ends inside body) (layHandlers_ends around handlers)
        (layCommands_ends around orelse) (layCommands_ends around finalbody)

theorem layCommands_ends (around : Surroundings) : (commands : List Command) →
    Ends around (layCommands around commands)
  | [] => ends_nil
  | command :: rest => ends_cons (layCommand_ends around command) (layCommands_ends around rest)

theorem layAlternatives_ends (around : Surroundings) : (rest : Alternatives) →
    EndsAlternatives around rest
  | .none => endsAlternatives_none
  | .further _ body rest =>
      endsAlternatives_further (layCommands_ends around body) (layAlternatives_ends around rest)
  | .otherwise _ body => endsAlternatives_otherwise (layCommands_ends around body)

theorem layHandlers_ends (around : Surroundings) : (handlers : List (List Command)) →
    EndsHandlers around handlers
  | [] => endsHandlers_nil
  | handler :: rest =>
      endsHandlers_cons (layCommands_ends around handler) (layHandlers_ends around rest)

end

theorem ProgramStages.canEnd {program : List Command} {exit entry id : BlockId}
    (stages : ProgramStages program exit entry final) (small : id < final.size) :
    Graph.CanEnd ⟨final.blocks, final.edges, entry, exit⟩ id := by
  have exitEnds : Graph.CanEnd ⟨final.blocks, final.edges, entry, exit⟩ exit :=
    Graph.canEnd_of_leads_nil (leads_of_open stages.exit_open)
  have stopEnds : Graph.CanEnd ⟨final.blocks, final.edges, entry, exit⟩ stages.stop :=
    Graph.canEnd_of_leads_nil (leads_of_open stages.region.next_open)
  have exitEq := stages.exit_eq
  have entryEq := stages.entry_eq
  have startedSize := stages.started_size
  by_cases isExit : id = exit
  · exact isExit ▸ exitEnds
  · exact layCommands_ends _ program stages.ready stages.entry_lt (stages.started_open _) stages.run
      _ stages.completes stopEnds (fun target isTarget => of_isTarget_outside isTarget ▸ exitEnds)
      id (by lia) small

end Layout

namespace Graph

/-- Control can end from every block of the graph of a program. -/
theorem canEnd_ofCommands (program : List Command) {id : BlockId}
    (small : id < (ofCommands program).size) : (ofCommands program).CanEnd id := by
  have staged : Nonempty (Layout.ProgramStages program _ _ _) := Layout.of_run_layProgram rfl
  rcases staged with ⟨stages⟩
  exact stages.canEnd small

/-- Control can end from every block of the graph of a module or function. -/
theorem canEnd_of_lt_size {root : Node} {graph : Graph} (built : ofRoot root = .ok graph)
    {id : BlockId} (small : id < graph.size) : graph.CanEnd id := by
  rcases ofRoot_eq_ok built with ⟨statements, rfl, -⟩
  exact canEnd_ofCommands _ small

end Graph

end FlowAnalysis
