import FlowAnalysis.Proofs.ControlFlow.Layout

/-!
# How commands come to lie

The layout of each construct is a chain of growths: new blocks, bodies and edges between them. Each
lemma here follows the chain of one construct; `Layout.layCommand_lays` puts them together by
recursion over commands. The graph of a program then has its commands laid out from the entry on,
its exceptional exit is empty and never left, and it is well formed.
-/

namespace FlowAnalysis

namespace Layout

open Command

variable {around : Surroundings} {layout layout' : Layout}

/-! ### Commands without bodies -/

theorem of_run_append_region {last : BlockId} {statement : Node} {result : Unit}
    (ready : Ready around layout) (lastLt : last < layout.size) (lastOpen : layout.Open last)
    (run : (append last statement).run layout = (result, layout')) :
    Region around layout last layout' last := by
  rcases of_run_append run with ⟨sizeEq, edgesEq, othersEq, lastEq⟩
  refine ⟨by lia, by lia, .inl rfl, ?_, ?_, ?_, ?_, ?_, ?_⟩
  · intro target edgeMem
    exact lastOpen target (edgesEq ▸ edgeMem)
  · exact fun id _ notLast => othersEq id notLast
  · rw [lastEq lastLt]
    exact List.prefix_append _ _
  · simp [edgesEq]
  · intro edge edgeMem
    exact .inl (edgesEq ▸ edgeMem)
  · intro edge edgeMem
    have := ready.inRange edge (edgesEq ▸ edgeMem)
    lia

theorem lays_place (statement : Node) :
    Lays around (layCommand around (.place statement))
      (fun graph => LaidOut graph around (.place statement)) := by
  intro layout layout' last next ready lastLt lastOpen run
  rw [layCommand] at run
  rcases exists_of_run_bind run with ⟨_, middle, appended, run⟩
  rcases of_run_pure run with ⟨rfl, rfl⟩
  refine ⟨of_run_append_region ready lastLt lastOpen appended, ?_⟩
  intro graph completes
  rcases of_run_append appended with ⟨-, -, -, lastEq⟩
  have placed := completes.next_statements
  rw [lastEq lastLt] at placed ⊢
  rcases placed with ⟨later, placed⟩
  rw [LaidOut, Graph.At, ← placed]
  simp

theorem lays_jump (jump : Jump) (statement : Node) :
    Lays around (layCommand around (.jump jump statement))
      (fun graph => LaidOut graph around (.jump jump statement)) := by
  intro layout layout' last next ready lastLt lastOpen run
  rw [layCommand] at run
  rcases exists_of_run_bind run with ⟨_, appendedLayout, appended, run⟩
  rcases exists_of_run_bind run with ⟨_, linkedLayout, linked, created⟩
  have region := of_run_append_region ready lastLt lastOpen appended
  rcases of_run_append appended with ⟨appendedSize, -, -, lastEq⟩
  have targetLt : ∀ target ∈ around.target? jump, target < appendedLayout.size := by
    intro target isTarget
    have := ready.target_lt target ⟨jump, isTarget⟩
    lia
  have linking : Grows (layout.Entered around)
      ((around.target? jump).toList.map fun target => (last, target)) appendedLayout linkedLayout ∧
      linkedLayout.size = appendedLayout.size :=
    Grows.of_linkTo? linked (by lia) targetLt (fun target isTarget => .inr ⟨jump, isTarget⟩)
  rcases linking with ⟨linking, linkedSize⟩
  have creating : Grows (layout.Entered around) [] linkedLayout layout' := .of_newBlock created
  rcases of_run_newBlock created with ⟨rfl, createdSize, -, -, createdEdges⟩
  have later := linking.trans creating
  have onlyLast : ∀ edge ∈ ((around.target? jump).toList.map fun target => (last, target)) ++ [],
      edge.1 = last := by
    simp +contextual
  have linkedRange : linkedLayout.InRange := linking.inRange region.inRange
  constructor
  · refine ⟨by lia, by lia, .inr (by lia), ?_, ?_, ?_, ?_, ?_, creating.inRange linkedRange⟩
    · intro target edgeMem
      exact linkedRange.open_size (Nat.le_refl _) target (createdEdges ▸ edgeMem)
    · intro id small notLast
      rw [later.statements_eq id (by lia), region.statements_eq id small notLast]
    · rw [later.statements_eq last (by lia)]
      exact region.last_statements
    · intro id small notLast target
      rw [later.mem_edges id (by lia), region.mem_edges id small notLast]
      constructor
      · rintro (old | new)
        · exact old
        · exact absurd (onlyLast _ new) notLast
      · exact .inl
    · intro edge edgeMem
      rcases later.entered edge edgeMem with old | entered
      · exact region.entered edge old
      · exact .inr entered
  · intro graph completes
    have agrees := completes.agrees last (.inl rfl) (by lia) (by lia)
    have endsIn : graph.EndsIn ⟨last, (appendedLayout.statements last).length⟩
        (around.target? jump).toList :=
      agrees.endsIn_of_open later (by lia) region.next_open (by simp)
    rw [lastEq lastLt, List.length_append, List.length_singleton] at endsIn
    refine ⟨?_, endsIn⟩
    rw [Graph.At, agrees.1, later.statements_eq last (by lia), lastEq lastLt]
    simp

/-! ### Headers and the bodies behind them -/

/-- A new block with some nodes, entered from another block, and a body behind it. -/
structure Headed (around : Surroundings) (source : BlockId) (nodes : List Node)
    (layout middle layout' : Layout) (exit : BlockId) (shape : Graph → Point → Point → Prop) :
    Prop where
  grows : Grows (layout.Entered around) [(source, layout.size)] layout layout'
  size_eq : middle.size = layout.size + 1
  header_statements : middle.statements layout.size = nodes
  header_open : middle.Open layout.size
  body : Body around [layout.size] middle layout' exit shape

theorem Entered.of_size_le {id : BlockId} (larger : layout.size ≤ layout'.size)
    (entered : layout'.Entered around id) : layout.Entered around id := by
  rcases entered with large | isTarget
  · exact .inl (Nat.le_trans larger large)
  · exact .inr isTarget

theorem of_run_headed {role bodyRole : BlockRole} {nodes : List Node} {source header exit : BlockId}
    {lay : BlockId → StateM Layout BlockId} {shape : Graph → Point → Point → Prop}
    {created linked : Layout} {result : Unit} (lays : Lays around lay shape)
    (ready : Ready around layout) (sourceLt : source < layout.size)
    (createRun : (newBlock around role nodes).run layout = (header, created))
    (linkRun : (link source header).run created = (result, linked))
    (bodyRun : (layBody around bodyRole [header] lay).run linked = (exit, layout')) :
    header = layout.size ∧ Headed around source nodes layout linked layout' exit shape := by
  rcases of_run_newBlock createRun with ⟨rfl, createdSize, createdHeader, -, createdEdges⟩
  have creating : Grows (layout.Entered around) [] layout created := .of_newBlock createRun
  have linking : Grows (layout.Entered around) [(source, layout.size)] created linked :=
    .of_link linkRun (by lia) (by lia) (.inl (Nat.le_refl _))
  have linkedSize : linked.size = created.size := by
    rw [size, (of_run_link linkRun).1, size]
  have createdOpen : created.Open layout.size := by
    intro target edgeMem
    exact ready.inRange.open_size (Nat.le_refl _) target (createdEdges ▸ edgeMem)
  have body := of_run_layBody lays ((ready.of_grows creating).of_grows linking)
    (by simp; lia) bodyRun
  have entering : Grows (layout.Entered around) [(layout.size, linked.size)] linked layout' :=
    body.grows.mono fun id entered => entered.of_size_le (by lia)
  refine ⟨rfl, ?_, by lia, ?_, ?_, body⟩
  · refine ((creating.trans linking).trans entering).congr ?_
    intro id small target
    simp
    lia
  · rw [linking.statements_eq _ (by lia), createdHeader]
  · refine linking.open_of (by lia) createdOpen ?_
    simp
    lia

namespace Headed

variable {source exit : BlockId} {nodes : List Node} {middle final : Layout}
  {shape : Graph → Point → Point → Prop} {allowed : BlockId → Prop}
  {drawn : List (BlockId × BlockId)} {graph : Graph} {targets : List BlockId}

/-- In the finished graph, control goes from the header to the body and wherever else edges have
been drawn later. -/
theorem leads (headed : Headed around source nodes layout middle layout' exit shape)
    (later : Grows allowed drawn layout' final)
    (goes : ∀ target, (layout.size, target) ∈ drawn ↔ target ∈ targets)
    (agrees : Agrees graph final layout.size) :
    graph.statements layout.size = nodes ∧
      graph.Leads layout.size ((layout.size + 1) :: targets) := by
  have sizeEq := headed.size_eq
  have bodySize := headed.body.grows.size_le
  have total : Grows (fun _ => True) ([(layout.size, middle.size)] ++ drawn) middle final :=
    (headed.body.grows.mono fun _ _ => trivial).trans (later.mono fun _ _ => trivial)
  refine ⟨?_, agrees.leads_of_open total (by lia) headed.header_open ?_⟩
  · rw [agrees.1, total.statements_eq _ (by lia), headed.header_statements]
  · simp [goes, sizeEq]

/-- In the finished graph, the body fills the way from its entry to the block to which its exit is
linked later. -/
theorem detour (headed : Headed around source nodes layout middle layout' exit shape)
    (later : Grows allowed drawn layout' final)
    (elsewhere : ∀ edge ∈ drawn, edge.1 ≤ layout.size ∨ edge.1 = exit ∨ layout'.size ≤ edge.1)
    {join : BlockId} (goes : ∀ target, (exit, target) ∈ drawn ↔ target = join)
    (agrees : AgreesOn graph final layout.size layout'.size) :
    graph.Detour (shape graph) (layout.size + 1) join := by
  have sizeEq := headed.size_eq
  rw [← sizeEq]
  refine headed.body.detour later ?_ goes ?_
  · intro edge edgeMem
    have := elsewhere edge edgeMem
    lia
  · exact fun id large small => agrees id (by lia) small

end Headed

/-! ### Conditionals -/

/-- What comes after a condition that does not hold, on the way to a join, is entered from the block
of the condition only. -/
def LaysAlternatives (around : Surroundings) (rest : Alternatives) : Prop :=
  ∀ ⦃layout layout' : Layout⦄ ⦃condBlock join : BlockId⦄ ⦃result : Unit⦄, Ready around layout →
    condBlock < layout.size → join < layout.size →
      (layAlternatives around rest condBlock join).run layout = (result, layout') →
        ∃ restEntry,
          Grows (fun id => layout.Entered around id ∨ id = join) [(condBlock, restEntry)] layout
            layout' ∧
          (restEntry = join ∨ layout.size ≤ restEntry) ∧
          ∀ graph, AgreesOn graph layout' layout.size layout'.size →
            AlternativesLaidOut graph around rest restEntry join

theorem laysAlternatives_none : LaysAlternatives around .none := by
  intro layout layout' condBlock join result ready condLt joinLt run
  rw [layAlternatives] at run
  refine ⟨join, .of_link run condLt joinLt (.inr rfl), .inl rfl, ?_⟩
  intro graph _
  rfl

theorem laysAlternatives_otherwise {header : Node} {body : List Command}
    (bodyLays : Lays around (layCommands around body)
      (fun graph => AllLaidOut graph around body)) :
    LaysAlternatives around (.otherwise header body) := by
  intro layout layout' condBlock join result ready condLt joinLt run
  rw [layAlternatives] at run
  rcases exists_of_run_bind run with ⟨headerBlock, created, createRun, run⟩
  rcases exists_of_run_bind run with ⟨_, linked, linkRun, run⟩
  rcases exists_of_run_bind run with ⟨bodyExit, laid, bodyRun, joinRun⟩
  rcases of_run_headed bodyLays ready condLt createRun linkRun bodyRun with ⟨rfl, headed⟩
  have sizeEq := headed.size_eq
  have exitGe := headed.body.exit_ge
  have exitLt := headed.body.exit_lt
  have laidSize := headed.grows.size_le
  have joining : Grows (fun id => layout.Entered around id ∨ id = join) [(bodyExit, join)] laid
      layout' := .of_link joinRun exitLt (by lia) (.inr rfl)
  refine ⟨layout.size, ?_, .inr (Nat.le_refl _), ?_⟩
  · refine ((headed.grows.mono fun id => .inl).trans joining).congr ?_
    intro id small target
    simp
    lia
  · intro graph agrees
    have finalSize := joining.size_le
    have leads : graph.statements layout.size = [header] ∧
        graph.Leads layout.size [layout.size + 1] :=
      headed.leads joining (by simp; lia) (agrees layout.size (Nat.le_refl _) (by lia))
    refine ⟨layout.size + 1, leads.1, leads.2, headed.detour joining ?_ ?_ ?_⟩
    · simp
    · simp
    · exact fun id large small => agrees id large (by lia)

theorem laysAlternatives_further {cond : Node} {body : List Command} {rest : Alternatives}
    (bodyLays : Lays around (layCommands around body)
      (fun graph => AllLaidOut graph around body))
    (restLays : LaysAlternatives around rest) :
    LaysAlternatives around (.further cond body rest) := by
  intro layout layout' condBlock join result ready condLt joinLt run
  rw [layAlternatives] at run
  rcases exists_of_run_bind run with ⟨furtherBlock, created, createRun, run⟩
  rcases exists_of_run_bind run with ⟨_, linked, linkRun, run⟩
  rcases exists_of_run_bind run with ⟨bodyExit, laid, bodyRun, run⟩
  rcases exists_of_run_bind run with ⟨_, joined, joinRun, restRun⟩
  rcases of_run_headed bodyLays ready condLt createRun linkRun bodyRun with ⟨rfl, headed⟩
  have sizeEq := headed.size_eq
  have exitGe := headed.body.exit_ge
  have exitLt := headed.body.exit_lt
  have laidSize := headed.grows.size_le
  have joining : Grows (fun id => layout.Entered around id ∨ id = join) [(bodyExit, join)] laid
      joined := .of_link joinRun exitLt (by lia) (.inr rfl)
  have joinedSize := joining.size_le
  rcases restLays ((ready.of_grows headed.grows).of_grows joining) (by lia) (by lia) restRun with
    ⟨restEntry, restGrows, restPlace, restLaid⟩
  have entering : Grows (fun id => layout.Entered around id ∨ id = join)
      [(layout.size, restEntry)] joined layout' :=
    restGrows.mono fun id => Or.imp_left (Entered.of_size_le (by lia))
  have finalSize := entering.size_le
  have later := joining.trans entering
  refine ⟨layout.size, ?_, .inr (Nat.le_refl _), ?_⟩
  · refine ((headed.grows.mono fun id => .inl).trans later).congr ?_
    intro id small target
    simp
    lia
  · intro graph agrees
    have leads : graph.statements layout.size = [cond] ∧
        graph.Leads layout.size [layout.size + 1, restEntry] :=
      headed.leads later (by simp; lia) (agrees layout.size (Nat.le_refl _) (by lia))
    refine ⟨layout.size + 1, restEntry, leads.1, leads.2, headed.detour later ?_ ?_ ?_, ?_⟩
    · simp
    · simp
      lia
    · exact fun id large small => agrees id large (by lia)
    · exact restLaid graph fun id large small => agrees id (by lia) small

theorem lays_branch {cond : Node} {body : List Command} {rest : Alternatives}
    (bodyLays : Lays around (layCommands around body)
      (fun graph => AllLaidOut graph around body))
    (restLays : LaysAlternatives around rest) :
    Lays around (layCommand around (.branch cond body rest))
      (fun graph => LaidOut graph around (.branch cond body rest)) := by
  intro layout layout' last next ready lastLt lastOpen run
  rw [layCommand] at run
  rcases exists_of_run_bind run with ⟨condBlock, created, createRun, run⟩
  rcases exists_of_run_bind run with ⟨_, linked, linkRun, run⟩
  rcases exists_of_run_bind run with ⟨bodyExit, laid, bodyRun, run⟩
  rcases exists_of_run_bind run with ⟨join, prepared, prepareRun, run⟩
  rcases exists_of_run_bind run with ⟨_, joined, joinRun, run⟩
  rcases exists_of_run_bind run with ⟨_, done, restRun, pureRun⟩
  rcases of_run_pure pureRun with ⟨rfl, rfl⟩
  rcases of_run_headed bodyLays ready lastLt createRun linkRun bodyRun with ⟨rfl, headed⟩
  rcases of_run_newBlock prepareRun with ⟨rfl, preparedSize, joinEmpty, -, preparedEdges⟩
  have sizeEq := headed.size_eq
  have exitGe := headed.body.exit_ge
  have exitLt := headed.body.exit_lt
  have laidSize := headed.grows.size_le
  have preparing : Grows (layout.Entered around) [] laid prepared := .of_newBlock prepareRun
  have joining : Grows (layout.Entered around) [(bodyExit, laid.size)] prepared joined :=
    .of_link joinRun (by lia) (by lia) (.inl laidSize)
  have joinedSize := joining.size_le
  have joinedReady := ((ready.of_grows headed.grows).of_grows preparing).of_grows joining
  rcases restLays joinedReady (by lia) (by lia) restRun with
    ⟨restEntry, restGrows, restPlace, restLaid⟩
  have entering : Grows (layout.Entered around) [(layout.size, restEntry)] joined layout' := by
    refine restGrows.mono fun id entered => ?_
    rcases entered with entered | rfl
    · exact entered.of_size_le (by lia)
    · exact .inl laidSize
  have finalSize := entering.size_le
  have later := joining.trans entering
  have total := headed.grows.trans (preparing.trans later)
  have joinOpen : layout'.Open laid.size := by
    refine later.open_of (by lia) ?_ (by simp; lia)
    intro target edgeMem
    have laidRange := headed.grows.inRange ready.inRange
    exact laidRange.open_size (Nat.le_refl _) target (preparedEdges ▸ edgeMem)
  constructor
  · refine .of_grows ready total ?_ laidSize (by lia) joinOpen lastLt
    simp
    lia
  · intro graph completes
    have joinStatements : layout'.statements laid.size = [] := by
      rw [later.statements_eq _ (by lia), joinEmpty]
    have startEnds : graph.EndsIn ⟨last, (layout.statements last).length⟩ [layout.size] := by
      refine (completes.agrees last (.inl rfl) (by lia) (by lia)).endsIn_of_open total lastLt
        lastOpen ?_
      simp
      lia
    have agrees : ∀ id, layout.size ≤ id → id < layout'.size → id ≠ laid.size →
        Agrees graph layout' id :=
      fun id large small notJoin => completes.agrees id (.inr large) small notJoin
    have leads : graph.statements layout.size = [cond] ∧
        graph.Leads layout.size [layout.size + 1, restEntry] :=
      headed.leads (preparing.trans later) (by simp; lia)
        (agrees layout.size (Nat.le_refl _) (by lia) (by lia))
    refine ⟨layout.size, layout.size + 1, restEntry, startEnds, leads.1, leads.2,
      headed.detour (preparing.trans later) ?_ ?_ ?_, ?_, by simp [joinStatements]⟩
    · simp
    · simp
      lia
    · exact fun id large small => agrees id large (by lia) (by lia)
    · exact restLaid graph fun id large small => agrees id (by lia) small (by lia)

theorem lays_bracket {bindings : List Node} {body : List Command}
    (bodyLays : Lays around (layCommands around body)
      (fun graph => AllLaidOut graph around body)) :
    Lays around (layCommand around (.bracket bindings body))
      (fun graph => LaidOut graph around (.bracket bindings body)) := by
  intro layout layout' last next ready lastLt lastOpen run
  rw [layCommand] at run
  rcases exists_of_run_bind run with ⟨bindingBlock, created, createRun, run⟩
  rcases exists_of_run_bind run with ⟨_, linked, linkRun, bodyRun⟩
  rcases of_run_headed bodyLays ready lastLt createRun linkRun bodyRun with ⟨rfl, headed⟩
  have sizeEq := headed.size_eq
  have exitGe := headed.body.exit_ge
  have exitLt := headed.body.exit_lt
  have finalSize := headed.grows.size_le
  constructor
  · refine .of_grows ready headed.grows ?_ (by lia) exitLt headed.body.exit_open lastLt
    simp
  · intro graph completes
    have startEnds : graph.EndsIn ⟨last, (layout.statements last).length⟩ [layout.size] := by
      refine (completes.agrees last (.inl rfl) (by lia) (by lia)).endsIn_of_open headed.grows
        lastLt lastOpen ?_
      simp
    have unchanged : Grows (layout.Entered around) [] layout' layout' := .refl layout'
    have leads : graph.statements layout.size = bindings ∧
        graph.Leads layout.size [layout.size + 1] :=
      headed.leads unchanged (by simp)
        (completes.agrees layout.size (.inr (Nat.le_refl _)) (by lia) (by lia))
    refine ⟨layout.size, layout.size + 1, startEnds, leads.1, leads.2, ?_⟩
    rw [← sizeEq]
    refine headed.body.laid graph ?_ completes.next_statements
    exact fun id large small notExit => completes.agrees id (.inr (by lia)) small notExit

/-! ### Loops -/

theorem of_run_layBetween {role : BlockRole} {sources : List BlockId} {body : List Command}
    {lay : BlockId → StateM Layout BlockId} {shape : Graph → Point → Point → Prop}
    {target : BlockId} {result : Unit} (lays : Lays around lay shape) (ready : Ready around layout)
    (sourcesLt : ∀ source ∈ sources, source < layout.size) (targetLt : target < layout.size)
    (run : (layBetween around role sources body lay target).run layout = (result, layout')) :
    ∃ entry,
      Grows (fun id => layout.Entered around id ∨ id = target)
        (sources.map fun source => (source, entry)) layout layout' ∧
      (entry = target ∨ layout.size ≤ entry) ∧
      ∀ graph, AgreesOn graph layout' layout.size layout'.size →
        graph.OptionalDetour body (shape graph) entry target := by
  rw [layBetween] at run
  by_cases empty : body.isEmpty
  · rw [if_pos empty] at run
    refine ⟨target, (Grows.of_linkAll run sourcesLt targetLt (.inr rfl)).1, .inl rfl, ?_⟩
    intro graph _
    rw [Graph.OptionalDetour, if_pos empty]
  · rw [if_neg empty] at run
    rcases exists_of_run_bind run with ⟨exit, laid, bodyRun, linkRun⟩
    have bodyLaid := of_run_layBody lays ready sourcesLt bodyRun
    have exitGe := bodyLaid.exit_ge
    have exitLt := bodyLaid.exit_lt
    have laidSize := bodyLaid.grows.size_le
    have linking : Grows (fun id => layout.Entered around id ∨ id = target) [(exit, target)] laid
        layout' := .of_link linkRun exitLt (by lia) (.inr rfl)
    have finalSize := linking.size_le
    refine ⟨layout.size, ?_, .inr (Nat.le_refl _), ?_⟩
    · refine ((bodyLaid.grows.mono fun id => .inl).trans linking).congr ?_
      intro id small next
      simp
      lia
    · intro graph agrees
      rw [Graph.OptionalDetour, if_neg empty]
      refine bodyLaid.detour linking (by simp) (by simp) ?_
      exact fun id large small => agrees id large (by lia)

theorem of_isTarget_insideLoop {targets : LoopTargets} {bound : List Node} {id : BlockId}
    (isTarget : (around.insideLoop targets bound).IsTarget id) :
    id = targets.head ∨ id = targets.exit ∨ around.IsTarget id := by
  rcases isTarget with ⟨jump, goes⟩
  cases jump with
  | raising => exact .inr (.inr ⟨.raising, goes⟩)
  | breaking => exact .inr (.inl (Option.some.inj goes).symm)
  | continuing => exact .inl (Option.some.inj goes).symm

theorem lays_loop {kind : LoopKind} {head : Node} {bound : List Node} {body orelse : List Command}
    (bodyLays : ∀ inside, Lays inside (layCommands inside body)
      (fun graph => AllLaidOut graph inside body))
    (orelseLays : Lays around (layCommands around orelse)
      (fun graph => AllLaidOut graph around orelse)) :
    Lays around (layCommand around (.loop kind head bound body orelse))
      (fun graph => LaidOut graph around (.loop kind head bound body orelse)) := by
  intro layout layout' last next ready lastLt lastOpen run
  rw [layCommand] at run
  rcases exists_of_run_bind run with ⟨headBlock, created, createRun, run⟩
  rcases exists_of_run_bind run with ⟨_, linked, linkRun, run⟩
  rcases exists_of_run_bind run with ⟨join, prepared, prepareRun, run⟩
  rcases exists_of_run_bind run with ⟨bodyExit, laid, bodyRun, run⟩
  rcases exists_of_run_bind run with ⟨_, looped, loopRun, run⟩
  rcases exists_of_run_bind run with ⟨_, done, elseRun, pureRun⟩
  rcases of_run_pure pureRun with ⟨rfl, rfl⟩
  rcases of_run_newBlock createRun with ⟨rfl, createdSize, createdHeader, -, createdEdges⟩
  rcases of_run_newBlock prepareRun with ⟨rfl, preparedSize, joinEmpty, -, preparedEdges⟩
  have linkedSize : linked.size = created.size := by
    rw [size, (of_run_link linkRun).1, size]
  have creating : Grows (layout.Entered around) [] layout created := .of_newBlock createRun
  have linking : Grows (layout.Entered around) [(last, layout.size)] created linked :=
    .of_link linkRun (by lia) (by lia) (.inl (Nat.le_refl _))
  have preparing : Grows (layout.Entered around) [] linked prepared := .of_newBlock prepareRun
  have preparedReady := ((ready.of_grows creating).of_grows linking).of_grows preparing
  -- The head and the join are blocks by now, so the body may jump to them.
  have insideReady : Ready (around.insideLoop ⟨layout.size, linked.size⟩ bound) prepared := by
    refine ⟨preparedReady.inRange, ?_⟩
    intro id isTarget
    rcases of_isTarget_insideLoop isTarget with isHead | isJoin | outer
    · lia
    · lia
    · exact preparedReady.target_lt id outer
  have body := of_run_layBody (bodyLays _) insideReady (by simp; lia) bodyRun
  have exitGe := body.exit_ge
  have exitLt := body.exit_lt
  have entering : Grows (layout.Entered around) [(layout.size, prepared.size)] prepared laid := by
    refine body.grows.mono fun id entered => ?_
    rcases entered with large | isTarget
    · exact .inl (by lia)
    · rcases of_isTarget_insideLoop isTarget with isHead | isJoin | outer
      · exact .inl (by lia)
      · exact .inl (by lia)
      · exact .inr outer
  have laidSize := entering.size_le
  have looping : Grows (layout.Entered around) [(bodyExit, layout.size)] laid looped :=
    .of_link loopRun exitLt (by lia) (.inl (Nat.le_refl _))
  have loopedSize := looping.size_le
  have loopedReady := (preparedReady.of_grows entering).of_grows looping
  rcases of_run_layBetween orelseLays loopedReady (by simp; lia) (by lia) elseRun with
    ⟨elseEntry, elseGrows, elsePlace, elseLaid⟩
  have leaving : Grows (layout.Entered around) [(layout.size, elseEntry)] looped layout' := by
    refine elseGrows.mono fun id entered => ?_
    rcases entered with entered | rfl
    · exact entered.of_size_le (by lia)
    · exact .inl (by lia)
  have finalSize := leaving.size_le
  have afterBody := looping.trans leaving
  have afterJoin := entering.trans afterBody
  have afterHead := linking.trans (preparing.trans afterJoin)
  have total := creating.trans afterHead
  have joinOpen : layout'.Open linked.size := by
    refine afterJoin.open_of (by lia) ?_ (by simp; lia)
    intro target edgeMem
    have linkedRange := linking.inRange (creating.inRange ready.inRange)
    exact linkedRange.open_size (Nat.le_refl _) target (preparedEdges ▸ edgeMem)
  constructor
  · refine .of_grows ready total ?_ (by lia) (by lia) joinOpen lastLt
    simp
    lia
  · intro graph completes
    have joinStatements : layout'.statements linked.size = [] := by
      rw [afterJoin.statements_eq _ (by lia), joinEmpty]
    have startEnds : graph.EndsIn ⟨last, (layout.statements last).length⟩ [layout.size] := by
      refine (completes.agrees last (.inl rfl) (by lia) (by lia)).endsIn_of_open total lastLt
        lastOpen ?_
      simp
      lia
    have agrees : ∀ id, layout.size ≤ id → id < layout'.size → id ≠ linked.size →
        Agrees graph layout' id :=
      fun id large small notJoin => completes.agrees id (.inr large) small notJoin
    have headAgrees := agrees layout.size (Nat.le_refl _) (by lia) (by lia)
    have createdOpen : created.Open layout.size := by
      intro target edgeMem
      exact ready.inRange.open_size (Nat.le_refl _) target (createdEdges ▸ edgeMem)
    have headLeads : graph.Leads layout.size [prepared.size, elseEntry] := by
      refine headAgrees.leads_of_open afterHead (by lia) createdOpen ?_
      simp
      lia
    refine ⟨layout.size, prepared.size, elseEntry, startEnds, ?_, headLeads, ?_, ?_,
      by simp [joinStatements]⟩
    · rw [headAgrees.1, afterHead.statements_eq _ (by lia), createdHeader]
    · refine body.detour afterBody (by simp; lia) (by simp; lia) ?_
      exact fun id large small => agrees id (by lia) (by lia) (by lia)
    · exact elseLaid graph fun id large small => agrees id (by lia) small (by lia)

/-! ### Guarded bodies -/

/-- Handlers are entered from the blocks that dispatch them, and each of them can be linked to a
common target afterwards. -/
def LaysHandlers (around : Surroundings) (handlers : List (List Command)) : Prop :=
  ∀ ⦃layout layout' : Layout⦄ ⦃dispatches exits : List BlockId⦄, Ready around layout →
    (∀ dispatch ∈ dispatches, dispatch < layout.size) →
      (layHandlers around dispatches handlers).run layout = (exits, layout') →
        ∃ entries,
          Grows (layout.Entered around)
            (entries.flatMap fun entry => dispatches.map fun dispatch => (dispatch, entry)) layout
            layout' ∧
          (∀ exit ∈ exits, layout.size ≤ exit ∧ exit < layout'.size) ∧
          ∀ (allowed : BlockId → Prop) (drawn : List (BlockId × BlockId)) (final : Layout)
            (graph : Graph) (target : BlockId), Grows allowed drawn layout' final →
            (∀ edge ∈ drawn, edge.1 < layout.size ∨ edge.1 ∈ exits ∨ layout'.size ≤ edge.1) →
            (∀ exit ∈ exits, ∀ id, (exit, id) ∈ drawn ↔ id = target) →
            AgreesOn graph final layout.size layout'.size →
            HandlersLaidOut graph around handlers entries target

theorem laysHandlers_nil : LaysHandlers around [] := by
  intro layout layout' dispatches exits ready dispatchesLt run
  rw [layHandlers] at run
  rcases of_run_pure run with ⟨rfl, rfl⟩
  refine ⟨[], .refl _, by simp, ?_⟩
  intros
  rfl

theorem laysHandlers_cons {handler : List Command} {rest : List (List Command)}
    (handlerLays : Lays around (layCommands around handler)
      (fun graph => AllLaidOut graph around handler))
    (restLays : LaysHandlers around rest) : LaysHandlers around (handler :: rest) := by
  intro layout layout' dispatches exits ready dispatchesLt run
  rw [layHandlers] at run
  rcases exists_of_run_bind run with ⟨handlerExit, laid, handlerRun, run⟩
  rcases exists_of_run_bind run with ⟨restExits, done, restRun, pureRun⟩
  rcases of_run_pure pureRun with ⟨rfl, rfl⟩
  have body := of_run_layBody handlerLays ready dispatchesLt handlerRun
  have laidSize := body.grows.size_le
  have exitGe := body.exit_ge
  have exitLt := body.exit_lt
  have laidDispatches : ∀ dispatch ∈ dispatches, dispatch < laid.size := by
    intro dispatch dispatchMem
    have := dispatchesLt dispatch dispatchMem
    lia
  rcases restLays (ready.of_grows body.grows) laidDispatches restRun with
    ⟨entries, restGrows, restExits, restLaid⟩
  have finalSize := restGrows.size_le
  refine ⟨layout.size :: entries, ?_, ?_, ?_⟩
  · rw [List.flatMap_cons]
    exact body.grows.trans (restGrows.mono fun id entered => entered.of_size_le laidSize)
  · intro exit exitMem
    rcases List.mem_cons.1 exitMem with rfl | later
    · lia
    · have := restExits exit later
      lia
  · intro allowed drawn final graph target later elsewhere goes agrees
    refine ⟨layout.size, entries, rfl, ?_, ?_⟩
    · have total : Grows (fun _ => True) (_ ++ drawn) laid final :=
        (restGrows.mono fun _ _ => trivial).trans (later.mono fun _ _ => trivial)
      have notDispatched : ∀ edge ∈ entries.flatMap fun entry =>
          dispatches.map fun dispatch => (dispatch, entry), edge.1 < layout.size := by
        intro edge edgeMem
        simp only [List.mem_flatMap, List.mem_map] at edgeMem
        rcases edgeMem with ⟨entry, -, dispatch, dispatchMem, rfl⟩
        exact dispatchesLt dispatch dispatchMem
      refine body.detour total ?_ ?_ ?_
      · intro edge edgeMem
        rcases List.mem_append.1 edgeMem with dispatched | edgeMem
        · exact .inl (notDispatched edge dispatched)
        · rcases elsewhere edge edgeMem with old | exit | new
          · exact .inl old
          · rcases List.mem_cons.1 exit with isExit | later
            · exact .inr (.inl isExit)
            · exact .inr (.inr (restExits _ later).1)
          · exact .inr (.inr (by lia))
      · intro id
        rw [List.mem_append, goes handlerExit (by simp)]
        constructor
        · rintro (dispatched | goes)
          · have := notDispatched _ dispatched
            lia
          · exact goes
        · exact .inr
      · exact fun id large small => agrees id large (by lia)
    · refine restLaid allowed drawn final graph target later ?_ ?_ ?_
      · intro edge edgeMem
        rcases elsewhere edge edgeMem with old | exit | new
        · exact .inl (by lia)
        · rcases List.mem_cons.1 exit with isExit | later
          · exact .inl (by lia)
          · exact .inr (.inl later)
        · exact .inr (.inr new)
      · exact fun exit exitMem => goes exit (List.mem_cons_of_mem _ exitMem)
      · exact fun id large small => agrees id (by lia) small

theorem of_run_newDispatch? {handlers : List (List Command)} {dispatch? : Option BlockId}
    (ready : Ready around layout)
    (run : (newDispatch? around handlers).run layout = (dispatch?, layout')) :
    Grows (layout.Entered around) [] layout layout' ∧ (dispatch? = none ↔ handlers = []) ∧
      (∀ dispatch ∈ dispatch?, dispatch = layout.size ∧ dispatch < layout'.size ∧
        layout'.statements dispatch = [] ∧ layout'.Open dispatch) ∧
      ∀ id, layout.size ≤ id → id < layout'.size → id ∈ dispatch? := by
  rw [newDispatch?] at run
  by_cases empty : handlers.isEmpty
  · rw [if_pos empty] at run
    rcases of_run_pure run with ⟨rfl, rfl⟩
    exact ⟨.refl _, by simpa using empty, by simp, fun id large small => by lia⟩
  · rw [if_neg empty, map_eq_pure_bind] at run
    rcases exists_of_run_bind run with ⟨dispatch, created, createRun, pureRun⟩
    rcases of_run_pure pureRun with ⟨rfl, rfl⟩
    rcases of_run_newBlock createRun with ⟨rfl, createdSize, dispatchEmpty, -, createdEdges⟩
    refine ⟨.of_newBlock createRun, by simpa using empty, ?_, ?_⟩
    · intro dispatch isDispatch
      rcases Option.mem_some.1 isDispatch with rfl
      refine ⟨rfl, by lia, dispatchEmpty, ?_⟩
      intro target edgeMem
      exact ready.inRange.open_size (Nat.le_refl _) target (createdEdges ▸ edgeMem)
    · intro id large small
      have isDispatch : layout.size = id := by lia
      exact Option.mem_some.2 isDispatch

/-- A body that may be empty ends in its source or in a new block. Once that block is linked to a
target, control goes from the source on to one more block, over which the body lies. -/
theorem of_run_layOptional {role : BlockRole} {source exit : BlockId} {body : List Command}
    {lay : BlockId → StateM Layout BlockId} {shape : Graph → Point → Point → Prop}
    (lays : Lays around lay shape) (ready : Ready around layout) (sourceLt : source < layout.size)
    (run : (layOptional around role source body lay).run layout = (exit, layout')) :
    ∃ drawn, Grows (layout.Entered around) drawn layout layout' ∧
      (∀ edge ∈ drawn, edge.1 = source) ∧ (exit = source ∨ layout.size ≤ exit) ∧
      exit < layout'.size ∧
      ∀ (allowed : BlockId → Prop) (later : List (BlockId × BlockId)) (final : Layout)
        (graph : Graph) (target : BlockId), Grows allowed later layout' final →
        (∀ edge ∈ later, edge.1 < layout.size ∨ edge.1 = exit ∨ layout'.size ≤ edge.1) →
        (∀ id, (exit, id) ∈ later ↔ id = target) →
        (exit ≠ source → ∀ id, (source, id) ∉ later) →
        AgreesOn graph final layout.size layout'.size →
        ∃ entry, (∀ id, (source, id) ∈ drawn ∨ (source, id) ∈ later ↔ id = entry) ∧
          graph.OptionalDetour body (shape graph) entry target := by
  rw [layOptional] at run
  by_cases empty : body.isEmpty
  · rw [if_pos empty] at run
    rcases of_run_pure run with ⟨rfl, rfl⟩
    refine ⟨[], .refl _, by simp, .inl rfl, sourceLt, ?_⟩
    intro allowed later final graph target _ _ goes _ _
    refine ⟨target, by simp [goes], ?_⟩
    rw [Graph.OptionalDetour, if_pos empty]
  · rw [if_neg empty] at run
    have bodyLaid := of_run_layBody lays ready (by simpa using sourceLt) run
    have exitGe := bodyLaid.exit_ge
    refine ⟨[(source, layout.size)], bodyLaid.grows, by simp, .inr exitGe, bodyLaid.exit_lt, ?_⟩
    intro allowed later final graph target growsLater elsewhere goes notSource agrees
    refine ⟨layout.size, by simp [notSource (by lia)], ?_⟩
    rw [Graph.OptionalDetour, if_neg empty]
    exact bodyLaid.detour growsLater elsewhere goes agrees

theorem of_isTarget_guardedBy {dispatch? : Option BlockId} {id : BlockId}
    (isTarget : (around.guardedBy (dispatch?.getD around.handler)).IsTarget id) :
    id ∈ dispatch? ∨ around.IsTarget id := by
  rcases isTarget with ⟨jump, goes⟩
  cases jump with
  | raising =>
      cases dispatch? with
      | none => exact .inr ⟨.raising, goes⟩
      | some dispatch => exact .inl goes
  | breaking => exact .inr ⟨.breaking, goes⟩
  | continuing => exact .inr ⟨.continuing, goes⟩

/-- The stages in which a guarded body is laid out between two layouts: the join, the block that
dispatches the handlers, the handlers, the body, the edge to the handlers, the `else` clause, and
what comes last. -/
structure GuardedStages (around : Surroundings) (layout layout' : Layout) (last : BlockId) where
  created : Layout
  dispatched : Layout
  handled : Layout
  laid : Layout
  caught : Layout
  elsed : Layout
  dispatch? : Option BlockId
  handlerEntries : List BlockId
  handlerExits : List BlockId
  bodyExit : BlockId
  normalExit : BlockId
  exits : List BlockId
  lastEntry : BlockId
  elseDrawn : List (BlockId × BlockId)
  ready : Ready around layout
  last_lt : last < layout.size
  last_open : layout.Open last
  created_size : created.size = layout.size + 1
  created_join : created.statements layout.size = []
  created_open : created.Open layout.size
  creating : Grows (layout.Entered around) [] layout created
  dispatching : Grows (layout.Entered around) [] created dispatched
  handling : Grows (layout.Entered around)
    (handlerEntries.flatMap fun entry => dispatch?.toList.map fun dispatch => (dispatch, entry))
    dispatched handled
  entering : Grows (layout.Entered around) [(last, handled.size)] handled laid
  catching : Grows (layout.Entered around)
    (dispatch?.toList.map fun dispatch => (bodyExit, dispatch)) laid caught
  elsing : Grows (layout.Entered around) elseDrawn caught elsed
  leaving : Grows (layout.Entered around) (exits.map fun exit => (exit, lastEntry)) elsed layout'
  dispatch_place : ∀ dispatch ∈ dispatch?, created.size ≤ dispatch ∧ dispatch < dispatched.size
  mem_dispatch? : ∀ id, created.size ≤ id → id < dispatched.size → id ∈ dispatch?
  caught_size : caught.size = laid.size
  dispatch_empty : ∀ dispatch ∈ dispatch?, dispatched.statements dispatch = []
  dispatch_open : ∀ dispatch ∈ dispatch?, dispatched.Open dispatch
  handlerExit_place : ∀ exit ∈ handlerExits, dispatched.size ≤ exit ∧ exit < handled.size
  exit_ge : handled.size ≤ bodyExit
  exit_lt : bodyExit < laid.size
  elseDrawn_from : ∀ edge ∈ elseDrawn, edge.1 = bodyExit
  normal_place : normalExit = bodyExit ∨ caught.size ≤ normalExit
  normal_lt : normalExit < elsed.size
  mem_exits : ∀ id, id ∈ exits ↔ id = normalExit ∨ id ∈ handlerExits

namespace GuardedStages

variable {last : BlockId} (stages : GuardedStages around layout layout' last)

/-- The edges drawn after the body. -/
def drawnAfterBody : List (BlockId × BlockId) :=
  (stages.dispatch?.toList.map fun dispatch => (stages.bodyExit, dispatch)) ++
    (stages.elseDrawn ++ stages.exits.map fun exit => (exit, stages.lastEntry))

/-- The edges drawn after the handlers. -/
def drawnAfterHandlers : List (BlockId × BlockId) :=
  [(last, stages.handled.size)] ++ stages.drawnAfterBody

/-- The edges drawn after the block that dispatches the handlers. -/
def drawnAfterDispatch : List (BlockId × BlockId) :=
  (stages.handlerEntries.flatMap fun entry =>
    stages.dispatch?.toList.map fun dispatch => (dispatch, entry)) ++ stages.drawnAfterHandlers

theorem sizes :
    layout.size < stages.created.size ∧ stages.created.size ≤ stages.dispatched.size ∧
      stages.dispatched.size ≤ stages.handled.size ∧ stages.handled.size ≤ stages.bodyExit ∧
      stages.bodyExit < stages.laid.size ∧ stages.laid.size ≤ stages.caught.size ∧
      stages.caught.size ≤ stages.elsed.size ∧ stages.elsed.size ≤ layout'.size := by
  refine ⟨?_, stages.dispatching.size_le, stages.handling.size_le, stages.exit_ge, stages.exit_lt,
    stages.catching.size_le, stages.elsing.size_le, stages.leaving.size_le⟩
  rw [stages.created_size]
  exact Nat.lt_succ_self _

theorem mem_leaving {id target : BlockId} :
    ((id, target) ∈ stages.exits.map fun exit => (exit, stages.lastEntry)) ↔
      (id = stages.normalExit ∨ id ∈ stages.handlerExits) ∧ target = stages.lastEntry := by
  simp [stages.mem_exits, and_comm, eq_comm]

theorem mem_drawnAfterBody {id target : BlockId} :
    (id, target) ∈ stages.drawnAfterBody ↔
      id = stages.bodyExit ∧ target ∈ stages.dispatch? ∨ (id, target) ∈ stages.elseDrawn ∨
        (id = stages.normalExit ∨ id ∈ stages.handlerExits) ∧ target = stages.lastEntry := by
  rw [drawnAfterBody, List.mem_append, List.mem_append, mem_leaving]
  simp [and_comm, eq_comm]

theorem mem_drawnAfterHandlers {id target : BlockId} :
    (id, target) ∈ stages.drawnAfterHandlers ↔
      id = last ∧ target = stages.handled.size ∨ (id, target) ∈ stages.drawnAfterBody := by
  simp [drawnAfterHandlers]

theorem mem_drawnAfterDispatch {id target : BlockId} :
    (id, target) ∈ stages.drawnAfterDispatch ↔
      id ∈ stages.dispatch? ∧ target ∈ stages.handlerEntries ∨
        (id, target) ∈ stages.drawnAfterHandlers := by
  simp [drawnAfterDispatch, and_comm]

theorem growsAfterBody :
    Grows (layout.Entered around) stages.drawnAfterBody stages.laid layout' :=
  stages.catching.trans (stages.elsing.trans stages.leaving)

theorem growsAfterHandlers :
    Grows (layout.Entered around) stages.drawnAfterHandlers stages.handled layout' :=
  stages.entering.trans stages.growsAfterBody

theorem growsAfterDispatch :
    Grows (layout.Entered around) stages.drawnAfterDispatch stages.dispatched layout' :=
  stages.handling.trans stages.growsAfterHandlers

theorem growsAfterJoin :
    Grows (layout.Entered around) stages.drawnAfterDispatch stages.created layout' :=
  stages.dispatching.trans stages.growsAfterDispatch

theorem grows : Grows (layout.Entered around) stages.drawnAfterDispatch layout layout' :=
  stages.creating.trans stages.growsAfterJoin

/-- Where the edges drawn after the body come from. -/
theorem drawnAfterBody_from {edge : BlockId × BlockId} (edgeMem : edge ∈ stages.drawnAfterBody) :
    edge.1 = stages.bodyExit ∨ edge.1 = stages.normalExit ∨ edge.1 ∈ stages.handlerExits := by
  rcases stages.mem_drawnAfterBody.1 edgeMem with ⟨isExit, -⟩ | drawn | ⟨leaves, -⟩
  · exact .inl isExit
  · exact .inl (stages.elseDrawn_from _ drawn)
  · exact .inr leaves

/-- Edges from old blocks leave the one in which control has arrived. -/
theorem drawnAfterDispatch_from {edge : BlockId × BlockId}
    (edgeMem : edge ∈ stages.drawnAfterDispatch) :
    edge.1 = last ∨ layout.size < edge.1 := by
  have sizes := stages.sizes
  rcases stages.mem_drawnAfterDispatch.1 edgeMem with ⟨isDispatch, -⟩ | later
  · have := stages.dispatch_place _ isDispatch
    lia
  · rcases stages.mem_drawnAfterHandlers.1 later with ⟨isLast, -⟩ | later
    · exact .inl isLast
    · have normalPlace := stages.normal_place
      rcases stages.drawnAfterBody_from later with isExit | isNormal | isHandler
      · lia
      · lia
      · have := stages.handlerExit_place _ isHandler
        lia

include stages in
theorem join_open : layout'.Open layout.size := by
  refine stages.growsAfterJoin.open_of stages.sizes.1 stages.created_open ?_
  intro edge edgeMem isJoin
  have lastLt := stages.last_lt
  have := stages.drawnAfterDispatch_from edgeMem
  lia

include stages in
theorem region : Region around layout last layout' layout.size := by
  have sizes := stages.sizes
  refine .of_grows stages.ready stages.grows ?_ (Nat.le_refl _) (by lia) stages.join_open
    stages.last_lt
  intro edge edgeMem
  have := stages.drawnAfterDispatch_from edgeMem
  lia

variable {graph : Graph}

theorem start_endsIn (agrees : Agrees graph layout' last) :
    graph.EndsIn ⟨last, (layout.statements last).length⟩ [stages.handled.size] := by
  have sizes := stages.sizes
  have lastLt := stages.last_lt
  have normalPlace := stages.normal_place
  refine agrees.endsIn_of_open stages.grows stages.last_lt stages.last_open ?_
  intro target
  rw [mem_drawnAfterDispatch, mem_drawnAfterHandlers, List.mem_singleton]
  constructor
  · rintro (⟨isDispatch, -⟩ | ⟨-, isEntry⟩ | later)
    · have := stages.dispatch_place _ isDispatch
      lia
    · exact isEntry
    · rcases stages.drawnAfterBody_from later with isExit | isNormal | isHandler
      · lia
      · lia
      · have := stages.handlerExit_place _ isHandler
        lia
  · exact fun isEntry => .inr (.inl ⟨rfl, isEntry⟩)

theorem dispatch_leads {dispatch : BlockId} (isDispatch : dispatch ∈ stages.dispatch?)
    (agrees : Agrees graph layout' dispatch) :
    graph.statements dispatch = [] ∧ graph.Leads dispatch stages.handlerEntries := by
  have sizes := stages.sizes
  have place := stages.dispatch_place _ isDispatch
  have lastLt := stages.last_lt
  have normalPlace := stages.normal_place
  constructor
  · rw [agrees.1, stages.growsAfterDispatch.statements_eq _ place.2,
      stages.dispatch_empty _ isDispatch]
  · refine agrees.leads_of_open stages.growsAfterDispatch place.2
      (stages.dispatch_open _ isDispatch) ?_
    intro target
    rw [mem_drawnAfterDispatch, mem_drawnAfterHandlers]
    constructor
    · rintro (⟨-, isEntry⟩ | ⟨isLast, -⟩ | later)
      · exact isEntry
      · lia
      · rcases stages.drawnAfterBody_from later with isExit | isNormal | isHandler
        · lia
        · lia
        · have := stages.handlerExit_place _ isHandler
          lia
    · exact fun isEntry => .inl ⟨isDispatch, isEntry⟩

/-- Once what comes last is linked, every handler goes on to it. -/
theorem handlerExit_goes {exit : BlockId} (isExit : exit ∈ stages.handlerExits)
    (target : BlockId) :
    (exit, target) ∈ stages.drawnAfterHandlers ↔ target = stages.lastEntry := by
  have sizes := stages.sizes
  have lastLt := stages.last_lt
  have place := stages.handlerExit_place _ isExit
  rw [mem_drawnAfterHandlers, mem_drawnAfterBody]
  constructor
  · rintro (⟨isLast, -⟩ | ⟨isBodyExit, -⟩ | drawn | ⟨-, isEntry⟩)
    · lia
    · lia
    · have := stages.elseDrawn_from _ drawn
      lia
    · exact isEntry
  · exact fun isEntry => .inr (.inr (.inr ⟨.inr isExit, isEntry⟩))

theorem drawnAfterHandlers_from {edge : BlockId × BlockId}
    (edgeMem : edge ∈ stages.drawnAfterHandlers) :
    edge.1 < stages.dispatched.size ∨ edge.1 ∈ stages.handlerExits ∨
      stages.handled.size ≤ edge.1 := by
  have sizes := stages.sizes
  have lastLt := stages.last_lt
  have normalPlace := stages.normal_place
  rcases stages.mem_drawnAfterHandlers.1 edgeMem with ⟨isLast, -⟩ | later
  · exact .inl (by lia)
  · rcases stages.drawnAfterBody_from later with isExit | isNormal | isHandler
    · exact .inr (.inr (by lia))
    · exact .inr (.inr (by lia))
    · exact .inr (.inl isHandler)

end GuardedStages

/-- What the parts of a guarded body do in their stages. -/
structure GuardedRuns (around : Surroundings) {layout layout' : Layout} {last : BlockId}
    (stages : GuardedStages around layout layout' last) (body : List Command)
    (handlers : List (List Command)) (orelse finalbody : List Command) : Prop where
  noHandlers : stages.dispatch? = none ↔ handlers = []
  handlersRun : (layHandlers around stages.dispatch?.toList handlers).run stages.dispatched =
    (stages.handlerExits, stages.handled)
  bodyRun :
    (layBody (around.guardedBy (stages.dispatch?.getD around.handler)) .tryBody [last]
      (layCommands (around.guardedBy (stages.dispatch?.getD around.handler)) body)).run
        stages.handled = (stages.bodyExit, stages.laid)
  elseRun : (layOptional around .tryElseBody stages.bodyExit orelse (layCommands around orelse)).run
    stages.caught = (stages.normalExit, stages.elsed)
  finalRun : (layBetween around .finallyBody stages.exits finalbody (layCommands around finalbody)
    layout.size).run stages.elsed = ((), layout')
  handlersLaid : ∀ (allowed : BlockId → Prop) (drawn : List (BlockId × BlockId)) (final : Layout)
    (graph : Graph) (target : BlockId), Grows allowed drawn stages.handled final →
    (∀ edge ∈ drawn, edge.1 < stages.dispatched.size ∨ edge.1 ∈ stages.handlerExits ∨
      stages.handled.size ≤ edge.1) →
    (∀ exit ∈ stages.handlerExits, ∀ id, (exit, id) ∈ drawn ↔ id = target) →
    AgreesOn graph final stages.dispatched.size stages.handled.size →
    HandlersLaidOut graph around handlers stages.handlerEntries target
  bodyLaid : Body (around.guardedBy (stages.dispatch?.getD around.handler)) [last] stages.handled
    stages.laid stages.bodyExit
    (fun graph => AllLaidOut graph (around.guardedBy (stages.dispatch?.getD around.handler)) body)
  elseLaid : ∀ (graph : Graph), AgreesOn graph layout' stages.caught.size stages.elsed.size →
    ∃ elseEntry, (∀ target, (stages.bodyExit, target) ∈ stages.elseDrawn ∨
      (stages.bodyExit, target) ∈ stages.exits.map (fun exit => (exit, stages.lastEntry)) ↔
        target = elseEntry) ∧
      graph.OptionalDetour orelse (AllLaidOut graph around orelse) elseEntry stages.lastEntry
  finalLaid : ∀ graph, AgreesOn graph layout' stages.elsed.size layout'.size →
    graph.OptionalDetour finalbody (AllLaidOut graph around finalbody) stages.lastEntry layout.size

theorem of_run_guarded {body : List Command} {handlers : List (List Command)}
    {orelse finalbody : List Command} {last next : BlockId}
    (bodyLays : ∀ inside, Lays inside (layCommands inside body)
      (fun graph => AllLaidOut graph inside body))
    (handlersLay : LaysHandlers around handlers)
    (orelseLays : Lays around (layCommands around orelse)
      (fun graph => AllLaidOut graph around orelse))
    (finalLays : Lays around (layCommands around finalbody)
      (fun graph => AllLaidOut graph around finalbody))
    (ready : Ready around layout) (lastLt : last < layout.size) (lastOpen : layout.Open last)
    (run : (layCommand around (.guarded body handlers orelse finalbody) last).run layout =
      (next, layout')) :
    next = layout.size ∧ ∃ stages : GuardedStages around layout layout' last,
      GuardedRuns around stages body handlers orelse finalbody := by
  rw [layCommand] at run
  rcases exists_of_run_bind run with ⟨join, created, createRun, run⟩
  rcases exists_of_run_bind run with ⟨dispatch?, dispatched, dispatchRun, run⟩
  rcases exists_of_run_bind run with ⟨handlerExits, handled, handlersRun, run⟩
  rcases exists_of_run_bind run with ⟨bodyExit, laid, bodyRun, run⟩
  rcases exists_of_run_bind run with ⟨_, caught, catchRun, run⟩
  rcases exists_of_run_bind run with ⟨normalExit, elsed, elseRun, run⟩
  rcases exists_of_run_bind run with ⟨_, done, finalRun, pureRun⟩
  rcases of_run_pure pureRun with ⟨rfl, rfl⟩
  rcases of_run_newBlock createRun with ⟨rfl, createdSize, joinEmpty, -, createdEdges⟩
  have creating : Grows (layout.Entered around) [] layout created := .of_newBlock createRun
  have createdReady := ready.of_grows creating
  have createdOpen : created.Open layout.size := by
    intro target edgeMem
    exact ready.inRange.open_size (Nat.le_refl _) target (createdEdges ▸ edgeMem)
  -- The handlers lie before the body, as its jumps may go to the block that dispatches them.
  rcases of_run_newDispatch? createdReady dispatchRun with
    ⟨dispatchGrows, noHandlers, isDispatch, memDispatch⟩
  have dispatching : Grows (layout.Entered around) [] created dispatched :=
    dispatchGrows.mono fun id entered => entered.of_size_le (by lia)
  have dispatchedSize := dispatching.size_le
  have dispatchedReady := createdReady.of_grows dispatching
  have dispatchLt : ∀ dispatch ∈ dispatch?.toList, dispatch < dispatched.size := by
    intro dispatch dispatchMem
    exact (isDispatch dispatch (Option.mem_toList.1 dispatchMem)).2.1
  rcases handlersLay dispatchedReady dispatchLt handlersRun with
    ⟨handlerEntries, handlersGrow, handlerExitsPlace, handlersLaid⟩
  have handling : Grows (layout.Entered around) _ dispatched handled :=
    handlersGrow.mono fun id entered => entered.of_size_le (by lia)
  have handledSize := handling.size_le
  have handledReady := dispatchedReady.of_grows handling
  have insideReady : Ready (around.guardedBy (dispatch?.getD around.handler)) handled := by
    refine ⟨handledReady.inRange, ?_⟩
    intro id isTarget
    rcases of_isTarget_guardedBy isTarget with dispatch | outer
    · have := isDispatch id dispatch
      lia
    · exact handledReady.target_lt id outer
  have bodyLaid := of_run_layBody (bodyLays _) insideReady (by simp; lia) bodyRun
  have exitGe := bodyLaid.exit_ge
  have exitLt := bodyLaid.exit_lt
  have entering : Grows (layout.Entered around) [(last, handled.size)] handled laid := by
    refine bodyLaid.grows.mono fun id entered => ?_
    rcases entered with large | isTarget
    · exact .inl (by lia)
    · rcases of_isTarget_guardedBy isTarget with dispatch | outer
      · have := isDispatch id dispatch
        exact .inl (by lia)
      · exact .inr outer
  have laidSize := entering.size_le
  have laidReady := handledReady.of_grows entering
  have catching : Grows (layout.Entered around)
      (dispatch?.toList.map fun dispatch => (bodyExit, dispatch)) laid caught ∧
      caught.size = laid.size := by
    refine Grows.of_linkTo? catchRun exitLt ?_ ?_
    · intro dispatch dispatchMem
      have := isDispatch dispatch dispatchMem
      lia
    · intro dispatch dispatchMem
      have := isDispatch dispatch dispatchMem
      exact .inl (by lia)
  rcases catching with ⟨catching, caughtSize⟩
  have caughtReady := laidReady.of_grows catching
  rcases of_run_layOptional orelseLays caughtReady (by lia) elseRun with
    ⟨elseDrawn, elseGrows, elseSource, normalPlace, normalLt, elseLaid⟩
  have elsing : Grows (layout.Entered around) elseDrawn caught elsed :=
    elseGrows.mono fun id entered => entered.of_size_le (by lia)
  have elsedSize := elsing.size_le
  have elsedReady := caughtReady.of_grows elsing
  generalize exitsEq : (if finalbody.isEmpty then handlerExits ++ [normalExit]
    else normalExit :: handlerExits) = exits at finalRun
  have mem_exits : ∀ id, id ∈ exits ↔ id = normalExit ∨ id ∈ handlerExits := by
    intro id
    rw [← exitsEq]
    split <;> simp [or_comm]
  have exitsLt : ∀ exit ∈ exits, exit < elsed.size := by
    intro exit exitMem
    rcases (mem_exits exit).1 exitMem with rfl | handlerExit
    · exact normalLt
    · have := handlerExitsPlace exit handlerExit
      lia
  rcases of_run_layBetween finalLays elsedReady exitsLt (by lia) finalRun with
    ⟨lastEntry, finalGrows, finalPlace, finalLaid⟩
  have leaving : Grows (layout.Entered around) (exits.map fun exit => (exit, lastEntry)) elsed
      layout' := by
    refine finalGrows.mono fun id entered => ?_
    rcases entered with entered | rfl
    · exact entered.of_size_le (by lia)
    · exact .inl (Nat.le_refl _)
  have finalSize := leaving.size_le
  let stages : GuardedStages around layout layout' last :=
    { created, dispatched, handled, laid, caught, elsed, dispatch?, handlerEntries, handlerExits,
      bodyExit, normalExit, exits, lastEntry, elseDrawn, ready, creating, dispatching, handling,
      entering, catching, elsing, leaving, mem_exits
      last_lt := lastLt
      last_open := lastOpen
      created_size := createdSize
      created_join := joinEmpty
      created_open := createdOpen
      dispatch_place := fun dispatch dispatchMem => by
        have := isDispatch dispatch dispatchMem
        lia
      mem_dispatch? := memDispatch
      caught_size := caughtSize
      dispatch_empty := fun dispatch dispatchMem => (isDispatch dispatch dispatchMem).2.2.1
      dispatch_open := fun dispatch dispatchMem => (isDispatch dispatch dispatchMem).2.2.2
      handlerExit_place := handlerExitsPlace
      exit_ge := exitGe
      exit_lt := exitLt
      elseDrawn_from := elseSource
      normal_place := normalPlace
      normal_lt := normalLt }
  refine ⟨rfl, stages, noHandlers, handlersRun, bodyRun, elseRun, finalRun, handlersLaid, bodyLaid,
    ?_, finalLaid⟩
  intro graph agrees
  have elsewhere : ∀ edge ∈ exits.map fun exit => (exit, lastEntry),
      edge.1 = normalExit ∨ edge.1 < handled.size := by
    intro edge edgeMem
    rcases (stages.mem_leaving.1 edgeMem).1 with isNormal | isHandler
    · exact .inl isNormal
    · exact .inr (handlerExitsPlace _ isHandler).2
  refine elseLaid _ _ layout' graph lastEntry leaving ?_ ?_ ?_ agrees
  · intro edge edgeMem
    have := elsewhere edge edgeMem
    lia
  · exact fun target => stages.mem_leaving.trans (and_iff_right (.inl rfl))
  · intro differs target edgeMem
    have := elsewhere _ edgeMem
    lia

theorem lays_guarded {body : List Command} {handlers : List (List Command)}
    {orelse finalbody : List Command}
    (bodyLays : ∀ inside, Lays inside (layCommands inside body)
      (fun graph => AllLaidOut graph inside body))
    (handlersLay : LaysHandlers around handlers)
    (orelseLays : Lays around (layCommands around orelse)
      (fun graph => AllLaidOut graph around orelse))
    (finalLays : Lays around (layCommands around finalbody)
      (fun graph => AllLaidOut graph around finalbody)) :
    Lays around (layCommand around (.guarded body handlers orelse finalbody))
      (fun graph => LaidOut graph around (.guarded body handlers orelse finalbody)) := by
  intro layout layout' last next ready lastLt lastOpen run
  rcases of_run_guarded bodyLays handlersLay orelseLays finalLays ready lastLt lastOpen run with
    ⟨rfl, stages, runs⟩
  refine ⟨stages.region, ?_⟩
  intro graph completes
  have sizes := stages.sizes
  have joinStatements : layout'.statements layout.size = [] := by
    rw [stages.growsAfterJoin.statements_eq _ stages.sizes.1, stages.created_join]
  have agrees : AgreesOn graph layout' stages.created.size layout'.size :=
    fun id large small => completes.agrees id (.inr (by lia)) small (by lia)
  rcases runs.elseLaid graph (fun id large small => agrees id (by lia) (by lia)) with
    ⟨elseEntry, elseGoes, elseDetour⟩
  have bodyShaped : AllLaidOut graph (around.guardedBy (stages.dispatch?.getD around.handler)) body
        ⟨stages.handled.size, 0⟩ ⟨stages.bodyExit, (stages.laid.statements stages.bodyExit).length⟩ ∧
      graph.EndsIn ⟨stages.bodyExit, (stages.laid.statements stages.bodyExit).length⟩
        (elseEntry :: stages.dispatch?.toList) := by
    refine runs.bodyLaid.laid_and_endsIn stages.growsAfterBody ?_ ?_ ?_
    · intro edge edgeMem
      rcases stages.drawnAfterBody_from edgeMem with isExit | isNormal | isHandler
      · exact .inr (.inl isExit)
      · rcases stages.normal_place with isExit | isNew
        · exact .inr (.inl (isNormal.trans isExit))
        · exact .inr (.inr (by lia))
      · exact .inl (stages.handlerExit_place _ isHandler).2
    · intro target
      rw [GuardedStages.drawnAfterBody, List.mem_append, List.mem_append, elseGoes]
      simp [or_comm]
    · exact fun id large small => agrees id (by lia) (by lia)
  have handlersShaped :
      HandlersLaidOut graph around handlers stages.handlerEntries stages.lastEntry :=
    runs.handlersLaid _ _ layout' graph stages.lastEntry stages.growsAfterHandlers
      (fun edge => stages.drawnAfterHandlers_from) (fun exit => stages.handlerExit_goes)
      (fun id large small => agrees id (by lia) (by lia))
  refine ⟨stages.dispatch?, stages.handlerEntries, stages.handled.size, _, elseEntry,
    stages.lastEntry, stages.start_endsIn (completes.agrees last (.inl rfl) ?_ ?_), bodyShaped.1,
    bodyShaped.2, runs.noHandlers, ?_, handlersShaped, elseDetour, ?_, by simp [joinStatements]⟩
  · have := stages.last_lt
    lia
  · have := stages.last_lt
    lia
  · intro dispatch dispatchMem
    have place := stages.dispatch_place dispatch dispatchMem
    exact stages.dispatch_leads dispatchMem (agrees dispatch (by lia) (by lia))
  · exact runs.finalLaid graph fun id large small => agrees id (by lia) small

/-! ### All commands -/

theorem lays_nil :
    Lays around (layCommands around []) (fun graph => AllLaidOut graph around []) := by
  intro layout layout' last next ready lastLt lastOpen run
  rw [layCommands] at run
  rcases of_run_pure run with ⟨rfl, rfl⟩
  constructor
  · exact ⟨Nat.le_refl _, lastLt, .inl rfl, lastOpen, fun _ _ _ => rfl, List.prefix_refl _,
      fun _ _ _ _ => Iff.rfl, fun _ => .inl, ready.inRange⟩
  · intro graph _
    rfl

section Sequence

variable {middle : Layout} {last between next : BlockId}

/-- A region may be followed by another one, which starts in the block where the first goes on. -/
theorem Region.trans (first : Region around layout last middle between)
    (second : Region around middle between layout' next) (lastLt : last < layout.size) :
    Region around layout last layout' next := by
  have firstSize := first.size_le
  have secondSize := second.size_le
  have firstPlace := first.next_eq_or_le
  have secondPlace := second.next_eq_or_le
  refine ⟨by lia, second.next_lt, by lia, second.next_open, ?_, ?_, ?_, ?_, second.inRange⟩
  · intro id small notLast
    rw [second.statements_eq id (by lia) (by lia), first.statements_eq id small notLast]
  · by_cases same : last = between
    · subst same
      exact first.last_statements.trans second.last_statements
    · rw [second.statements_eq last (by lia) same]
      exact first.last_statements
  · intro id small notLast target
    rw [second.mem_edges id (by lia) (by lia), first.mem_edges id small notLast]
  · intro edge edgeMem
    rcases second.entered edge edgeMem with old | entered
    · exact first.entered edge old
    · exact .inr (entered.of_size_le firstSize)

/-- A graph that keeps a region keeps the first part of it. -/
theorem Completes.before {graph : Graph} (completes : Completes graph layout last layout' next)
    (first : Region around layout last middle between)
    (second : Region around middle between layout' next) :
    Completes graph layout last middle between := by
  have firstSize := first.size_le
  have secondSize := second.size_le
  have betweenLt := first.next_lt
  have firstPlace := first.next_eq_or_le
  have secondPlace := second.next_eq_or_le
  constructor
  · intro id inRegion small notBetween
    have agrees := completes.agrees id inRegion (by lia) (by lia)
    constructor
    · rw [agrees.1, second.statements_eq id small notBetween]
    · intro target
      rw [agrees.2, second.mem_edges id small notBetween]
  · by_cases same : between = next
    · subst same
      exact second.last_statements.trans completes.next_statements
    · rw [(completes.agrees between (by lia) (by lia) same).1]
      exact second.last_statements

/-- A graph that keeps a region keeps the second part of it. -/
theorem Completes.after {graph : Graph} (completes : Completes graph layout last layout' next)
    (first : Region around layout last middle between) :
    Completes graph middle between layout' next := by
  have firstSize := first.size_le
  have firstPlace := first.next_eq_or_le
  refine ⟨?_, completes.next_statements⟩
  intro id inRegion small notNext
  exact completes.agrees id (by lia) small notNext

end Sequence

theorem lays_cons {command : Command} {rest : List Command}
    (commandLays : Lays around (layCommand around command)
      (fun graph => LaidOut graph around command))
    (restLays : Lays around (layCommands around rest)
      (fun graph => AllLaidOut graph around rest)) :
    Lays around (layCommands around (command :: rest))
      (fun graph => AllLaidOut graph around (command :: rest)) := by
  intro layout layout' last next ready lastLt lastOpen run
  rw [layCommands] at run
  rcases exists_of_run_bind run with ⟨between, middle, commandRun, restRun⟩
  rcases commandLays ready lastLt lastOpen commandRun with ⟨first, commandShaped⟩
  have firstSize := first.size_le
  have middleReady : Ready around middle := by
    refine ⟨first.inRange, ?_⟩
    intro id isTarget
    have := ready.target_lt id isTarget
    lia
  rcases restLays middleReady first.next_lt first.next_open restRun with ⟨second, restShaped⟩
  refine ⟨first.trans second lastLt, ?_⟩
  intro graph completes
  exact ⟨_, commandShaped graph (completes.before first second),
    restShaped graph (completes.after first)⟩

mutual

/-- A command comes to lie as its description says. -/
theorem layCommand_lays (around : Surroundings) : (command : Command) →
    Lays around (layCommand around command) (fun graph => LaidOut graph around command)
  | .place statement => lays_place statement
  | .jump target statement => lays_jump target statement
  | .branch _ body rest =>
      lays_branch (layCommands_lays around body) (layAlternatives_lays around rest)
  | .loop _ _ _ body orelse =>
      lays_loop (fun inside => layCommands_lays inside body) (layCommands_lays around orelse)
  | .bracket _ body => lays_bracket (layCommands_lays around body)
  | .guarded body handlers orelse finalbody =>
      lays_guarded (fun inside => layCommands_lays inside body) (layHandlers_lays around handlers)
        (layCommands_lays around orelse) (layCommands_lays around finalbody)

theorem layCommands_lays (around : Surroundings) : (commands : List Command) →
    Lays around (layCommands around commands) (fun graph => AllLaidOut graph around commands)
  | [] => lays_nil
  | command :: rest => lays_cons (layCommand_lays around command) (layCommands_lays around rest)

theorem layAlternatives_lays (around : Surroundings) : (rest : Alternatives) →
    LaysAlternatives around rest
  | .none => laysAlternatives_none
  | .further _ body rest =>
      laysAlternatives_further (layCommands_lays around body) (layAlternatives_lays around rest)
  | .otherwise _ body => laysAlternatives_otherwise (layCommands_lays around body)

theorem layHandlers_lays (around : Surroundings) : (handlers : List (List Command)) →
    LaysHandlers around handlers
  | [] => laysHandlers_nil
  | handler :: rest =>
      laysHandlers_cons (layCommands_lays around handler) (layHandlers_lays around rest)

end

/-! ### Programs -/

theorem of_isTarget_outside {handler id : BlockId}
    (isTarget : (Surroundings.outside handler).IsTarget id) : id = handler := by
  rcases isTarget with ⟨jump, goes⟩
  cases jump with
  | raising => exact (Option.some.inj goes).symm
  | breaking => cases goes
  | continuing => cases goes

/-- Commands are laid out behind two empty blocks, from the second of which on they are executed. -/
structure ProgramStages (program : List Command) (exit entry : BlockId) (final : Layout) where
  started : Layout
  stop : BlockId
  exit_eq : exit = 0
  entry_eq : entry = 1
  started_size : started.size = 2
  started_edges : started.edges = []
  started_statements : ∀ id, started.statements id = []
  ready : Ready (.outside exit) started
  run : (layCommands (.outside exit) program entry).run started = (stop, final)

theorem of_run_layProgram {program : List Command} {exit entry : BlockId} {final : Layout}
    (run : (layProgram program).run {} = ((exit, entry), final)) :
    Nonempty (ProgramStages program exit entry final) := by
  rw [layProgram] at run
  rcases exists_of_run_bind run with ⟨_, exitLayout, exitRun, run⟩
  rcases exists_of_run_bind run with ⟨_, entryLayout, entryRun, run⟩
  rcases exists_of_run_bind run with ⟨stop, laid, bodyRun, pureRun⟩
  rcases of_run_pure pureRun with ⟨same, rfl⟩
  cases same
  rcases of_run_newBlock exitRun with ⟨exitEq, exitSize, exitEmpty, -, exitEdges⟩
  rcases of_run_newBlock entryRun with ⟨entryEq, entrySize, entryEmpty, exitKept, entryEdges⟩
  have noBlocks : ({} : Layout).size = 0 := rfl
  have noEdges : entryLayout.edges = [] := by
    rw [entryEdges, exitEdges]
  refine ⟨⟨entryLayout, stop, by lia, by lia, by lia, noEdges, ?_, ?_, bodyRun⟩⟩
  · intro id
    by_cases isExit : id < 1
    · have isExit : id = exit := by lia
      rw [exitKept id (by lia), isExit, exitEmpty]
    · by_cases isEntry : id = entry
      · rw [isEntry, entryEmpty]
      · have large : entryLayout.blocks.length ≤ id := by
          change entryLayout.size ≤ id
          lia
        simp [statements, List.getElem?_eq_none large]
  · refine ⟨by simp [InRange, noEdges], ?_⟩
    intro id isTarget
    have := of_isTarget_outside isTarget
    lia

namespace ProgramStages

variable {program : List Command} {exit entry : BlockId} {final : Layout}
  (stages : ProgramStages program exit entry final)

include stages

theorem entry_lt : entry < stages.started.size := by
  have entryEq := stages.entry_eq
  have startedSize := stages.started_size
  lia

theorem started_open (id : BlockId) : stages.started.Open id := by
  simp [Open, stages.started_edges]

theorem region : Region (.outside exit) stages.started entry final stages.stop :=
  (layCommands_lays (.outside exit) program stages.ready stages.entry_lt (stages.started_open entry)
    stages.run).1

omit stages in
/-- The finished graph agrees with the layout everywhere. -/
theorem agrees (id : BlockId) : Agrees ⟨final.blocks, final.edges, entry, exit⟩ final id :=
  ⟨rfl, fun _ => Graph.mem_successors⟩

theorem completes :
    Completes ⟨final.blocks, final.edges, entry, exit⟩ stages.started entry final stages.stop :=
  ⟨fun id _ _ _ => agrees id, List.prefix_refl _⟩

omit stages in
theorem leads_of_open {id : BlockId} (isOpen : final.Open id) :
    Graph.Leads ⟨final.blocks, final.edges, entry, exit⟩ id [] := by
  intro target
  rw [(agrees id).2]
  simp [isOpen target]

theorem exit_open : final.Open exit := by
  intro target edge
  have exitEq := stages.exit_eq
  have entryEq := stages.entry_eq
  have startedSize := stages.started_size
  rw [stages.region.mem_edges exit (by lia) (by lia), stages.started_edges] at edge
  exact absurd edge List.not_mem_nil

theorem laidOut : ProgramLaidOut ⟨final.blocks, final.edges, entry, exit⟩ program := by
  have region := stages.region
  have sizeLe := region.size_le
  have stopPlace := region.next_eq_or_le
  have exitEq := stages.exit_eq
  have entryEq := stages.entry_eq
  have startedSize := stages.started_size
  have laid := (layCommands_lays (.outside exit) program stages.ready stages.entry_lt
    (stages.started_open entry) stages.run).2 _ stages.completes
  rw [stages.started_statements] at laid
  have entryLt : entry < final.size := by lia
  refine ⟨⟨?_, ?_, entryLt, ?_⟩, ?_, leads_of_open stages.exit_open,
    ⟨_, laid, ⟨rfl, leads_of_open region.next_open⟩, ?_⟩⟩
  · exact fun edge edgeMem => (region.inRange edge edgeMem).1
  · exact fun edge edgeMem => (region.inRange edge edgeMem).2
  · intro edge edgeMem
    change edge.2 ≠ entry
    rcases region.entered edge edgeMem with old | large | isTarget
    · rw [stages.started_edges] at old
      exact absurd old List.not_mem_nil
    · lia
    · have := of_isTarget_outside isTarget
      lia
  · change final.statements exit = []
    rw [region.statements_eq exit (by lia) (by lia), stages.started_statements]
  · change stages.stop ≠ exit
    lia

end ProgramStages

end Layout

namespace Graph

/-- Commands are laid out as a program. -/
theorem ofCommands_laidOut (program : List Command) :
    Command.ProgramLaidOut (ofCommands program) program := by
  have staged : Nonempty (Layout.ProgramStages program _ _ _) := Layout.of_run_layProgram rfl
  rcases staged with ⟨stages⟩
  exact stages.laidOut

theorem ofRoot_eq_ok {root : Node} {graph : Graph} (built : ofRoot root = .ok graph) :
    ∃ statements, graph = ofStatements statements ∧
      (root.shape = .module statements ∨
        ∃ name params decorators, root.shape = .definition name params statements decorators) := by
  rw [ofRoot] at built
  split at built
  · next code shapeEq => exact ⟨code, (Except.ok.inj built).symm, .inl shapeEq⟩
  · next name params body decorators shapeEq =>
      exact ⟨body, (Except.ok.inj built).symm, .inr ⟨name, params, decorators, shapeEq⟩⟩
  · cases built

theorem ofRoot_eq_ofCommands {root : Node} {graph : Graph} (built : ofRoot root = .ok graph) :
    graph = ofCommands (Command.ofNodes root.body) := by
  rcases ofRoot_eq_ok built with ⟨statements, rfl, isRoot⟩
  have bodyEq : root.body = statements := by
    rcases isRoot with isModule | ⟨name, params, decorators, isDefinition⟩
    · simp [Node.body, isModule]
    · simp [Node.body, isDefinition]
  rw [ofStatements, bodyEq]

/-- The graph of a module or function lays out its statements. -/
theorem ofRoot_laidOut {root : Node} {graph : Graph} (built : ofRoot root = .ok graph) :
    Command.ProgramLaidOut graph (Command.ofNodes root.body) := by
  rcases ofRoot_eq_ofCommands built with rfl
  exact ofCommands_laidOut _

end Graph

end FlowAnalysis
