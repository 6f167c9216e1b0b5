import FlowAnalysis.Proofs.ControlFlow.Fence

/-!
# Fences around all guarded bodies

Each construct puts up the fences of its parts, by what `Layout.Follows` says of the steps it is
laid out with, and a guarded body with a last clause puts up one of its own behind them.
-/

namespace FlowAnalysis

namespace Layout

open Command

variable {around : Surroundings} {known : List (BlockId × Access)} {layout layout' : Layout}

/-! ### What new blocks hold -/

theorem statementsBetween_of_places {α : Type} {before : Layout → Prop} {step : StateM Layout α}
    {nodes : List (Node × List Node)} {after : α → Layout → Prop} {value : α}
    (places : Places before step nodes after) (holds : before layout)
    (run : step.run layout = (value, layout'))
    (kept : ∀ id < layout.size, layout'.blocks[id]? = layout.blocks[id]?) :
    (statementsBetween layout'.blocks layout.size layout'.size).Perm (nodes.map Prod.fst) := by
  have allPlaced := (places layout holds).1
  rw [run] at allPlaced
  have sameBlocks : layout'.blocks.take layout.size = layout.blocks := by
    apply List.ext_getElem?
    intro id
    rw [List.getElem?_take]
    split
    · next small => exact kept id small
    · next large => exact (List.getElem?_eq_none (Nat.le_of_not_lt large)).symm
  have split : layout'.placed =
      layout.placed ++ (layout'.blocks.drop layout.size).flatMap Block.placed := by
    calc layout'.placed
        = (layout'.blocks.take layout.size ++ layout'.blocks.drop layout.size).flatMap
            Block.placed := by rw [List.take_append_drop]; rfl
      _ = layout.placed ++ (layout'.blocks.drop layout.size).flatMap Block.placed := by
            rw [List.flatMap_append, sameBlocks]; rfl
  have newPlaced : ((layout'.blocks.drop layout.size).flatMap Block.placed).Perm nodes := by
    apply (List.perm_append_left_iff layout.placed).1
    rwa [← split]
  have sameStatements : ∀ block : Block, block.placed.map Prod.fst = block.statements := by
    intro block
    simp [Block.placed, Function.comp_def]
  have statementsEq : statementsBetween layout'.blocks layout.size layout'.size =
      ((layout'.blocks.drop layout.size).flatMap Block.placed).map Prod.fst := by
    rw [statementsBetween, size, size, List.take_length, List.map_flatMap]
    simp only [sameStatements]
  rw [statementsEq]
  exact newPlaced.map Prod.fst

/-! ### Guarded bodies -/

/-- Lays out all of a guarded body but the join and the last clause; gives the blocks in which the
body or its `else` clause and the handlers end. -/
def layParts (around : Surroundings) (last : BlockId) (body : List Command)
    (handlers : List (List Command)) (orelse : List Command) :
    StateM Layout (BlockId × List BlockId) := do
  let dispatch? ← newDispatch? around handlers
  let handlerExits ← layHandlers around dispatch?.toList handlers
  let inside := around.guardedBy (dispatch?.getD around.handler)
  let bodyExit ← layBody inside .tryBody [last] (layCommands inside body)
  linkTo? bodyExit dispatch?
  let normalExit ← layOptional around .tryElseBody bodyExit orelse (layCommands around orelse)
  return (normalExit, handlerExits)

/-- The blocks from which control goes on behind a guarded body. -/
def leaving (finalbody : List Command) (exits : BlockId × List BlockId) : List BlockId :=
  if finalbody.isEmpty then exits.2 ++ [exits.1] else exits.1 :: exits.2

theorem layCommand_guarded (body : List Command) (handlers : List (List Command))
    (orelse finalbody : List Command) (last : BlockId) :
    layCommand around (.guarded body handlers orelse finalbody) last = (do
      let join ← newBlock around .tryJoin []
      let exits ← layParts around last body handlers orelse
      layBetween around .finallyBody (leaving finalbody exits) finalbody
        (layCommands around finalbody) join
      return join) := by
  rw [layCommand]
  rfl

theorem of_run_linkAll {sources : List BlockId} {target : BlockId} {result : Unit}
    (run : (linkAll sources target).run layout = (result, layout')) :
    layout'.blocks = layout.blocks ∧
      ∀ edge ∈ layout'.edges, edge ∈ layout.edges ∨ edge.2 = target := by
  induction sources generalizing layout with
  | nil =>
      rcases of_run_pure run with ⟨-, rfl⟩
      exact ⟨rfl, fun edge old => .inl old⟩
  | cons source sources ih =>
      rw [linkAll_cons] at run
      rcases exists_of_run_bind run with ⟨_, middle, linkRun, restRun⟩
      rcases of_run_link linkRun with ⟨blocksEq, memEdges⟩
      rcases ih restRun with ⟨blocksEq', memEdges'⟩
      refine ⟨blocksEq'.trans blocksEq, fun edge drawn => ?_⟩
      rcases memEdges' edge drawn with drawn | toTarget
      · rcases (memEdges edge).1 drawn with old | rfl
        · exact .inl old
        · exact .inr rfl
      · exact .inr toTarget

/-- A body on the way to a block leaves the old blocks as they are but for edges to its own first
block. -/
theorem of_run_layBetween_cons {around' : Surroundings} {role : BlockRole} {sources : List BlockId}
    {command : Command} {rest : List Command} {lay : BlockId → StateM Layout BlockId}
    {target : BlockId} {commands : List Command} {result : Unit}
    (layFollows : ∀ entry, Follows around [(entry, .write)] (lay entry) commands
      fun exit => [(exit, .write)])
    (inRange : layout.InRange) (fits : around.Fits layout.blocks layout.size)
    (run : (layBetween around' role sources (command :: rest) lay target).run layout =
      (result, layout')) :
    layout.size < layout'.size ∧ roleAt layout'.blocks layout.size = some role ∧
      (∀ id < layout.size, layout'.blocks[id]? = layout.blocks[id]?) ∧
      ∀ edge ∈ layout'.edges, edge.1 < layout.size →
        edge ∈ layout.edges ∨ edge.2 = layout.size := by
  rcases exists_of_run_bind run with ⟨exit, linked, bodyRun, linkRun⟩
  rcases exists_of_run_bind bodyRun with ⟨entry, started, createRun, bodyRun⟩
  rcases exists_of_run_bind bodyRun with ⟨_, laid, layRun, bodyRun⟩
  rcases exists_of_run_bind bodyRun with ⟨_, _, linkAllRun, pureRun⟩
  rcases of_run_pure pureRun with ⟨rfl, rfl⟩
  have creating : Moves around [] layout started [(entry, .write), (entry, .enter role)] :=
    .of_newBlock inRange createRun
  rcases of_run_newBlock createRun with ⟨rfl, startedSize, -, -, startedEdges⟩
  have laying := (layFollows layout.size (creating.knows.mono (by simp)) (creating.fits fits)
    creating.inRange layRun).1
  rcases of_run_linkAll linkAllRun with ⟨linkedBlocks, linkedEdges⟩
  rcases of_run_link linkRun with ⟨blocksEq, memEdges⟩
  have sameBlocks := blocksEq.trans linkedBlocks
  have laidSize := laying.size_le
  have finalSize : layout'.size = laid.size := by rw [size, sameBlocks, size]
  refine ⟨by lia, ?_, ?_, ?_⟩
  · rw [sameBlocks, laying.role_eq _ (by lia)]
    exact creating.knows.role (by simp)
  · intro id small
    have notEntry : (id, Access.write) ∉ [(layout.size, Access.write)] := by
      simp
      lia
    rw [sameBlocks, laying.blocks_eq id (by lia) notEntry, creating.blocks_eq id small (by simp)]
  · intro edge drawn small
    rcases (memEdges edge).1 drawn with drawn | isLast
    · rcases linkedEdges edge drawn with drawn | toEntry
      · have notEntry : edge.1 ∉ [(layout.size, Access.write)].map Prod.fst := by
          simp
          lia
        rw [laying.edges_iff edge.1 (by lia) notEntry edge.2, startedEdges] at drawn
        exact .inl drawn
      · exact .inr toEntry
    · -- The body ends in its first block or in a new one.
      have := laying.origin (exit, .write) (List.mem_singleton_self _)
      simp only [List.mem_singleton, Prod.mk.injEq, and_true] at this
      have := congrArg Prod.fst isLast
      lia

theorem places_layParts (around : Surroundings) (last : BlockId) (body : List Command)
    (handlers : List (List Command)) (orelse : List Command) :
    Places (fun _ => True) (layParts around last body handlers orelse)
      (Command.placedByHandlers around.loopVariables handlers ++
        (Command.placedAll around.loopVariables body ++
          Command.placedAll around.loopVariables orelse)) fun _ _ => True := by
  rw [layParts]
  apply Places.of_eq
  · apply Places.bind (.newDispatch? handlers)
    intro dispatch?
    apply Places.bind (.layHandlers around dispatch?.toList handlers)
    intro handlerExits
    have bodyPlaces := Places.layCommands (around.guardedBy (dispatch?.getD around.handler)) body
    change ∀ id, Places _ _ (Command.placedAll around.loopVariables body) _ at bodyPlaces
    apply Places.bind (.layBody [last] bodyPlaces)
    intro bodyExit
    apply Places.bind (.linkTo? bodyExit dispatch?)
    intro _
    apply Places.bind (.layOptional bodyExit orelse (.layCommands around orelse))
    intro normalExit
    exact .pure fun _ _ => trivial
  · simp

/-- Commands are laid out behind a block, which is all that they need access to. -/
def AllFollow (around : Surroundings) (lay : BlockId → StateM Layout BlockId)
    (commands : List Command) : Prop :=
  ∀ ⦃known : List (BlockId × Access)⦄ ⦃last : BlockId⦄, (last, Access.write) ∈ known →
    Follows around known (lay last) commands fun next => [(next, .write)]

/-- Handlers need access to the blocks that dispatch them. -/
def HandlersFollow (around : Surroundings) (handlers : List (List Command)) : Prop :=
  ∀ ⦃known : List (BlockId × Access)⦄ ⦃dispatches : List BlockId⦄,
    (∀ dispatch ∈ dispatches, dispatch ∈ known.map Prod.fst) →
      Follows around known (layHandlers around dispatches handlers)
        (closingsOfHandlers handlers) fun exits => exits.map (·, .write)

/-- What comes after a condition that does not hold needs access to the block of the condition and
to the join. -/
def AlternativesFollow (around : Surroundings) (rest : Alternatives) : Prop :=
  ∀ ⦃known : List (BlockId × Access)⦄ ⦃condBlock join : BlockId⦄ ⦃role : BlockRole⦄,
    condBlock ∈ known.map Prod.fst → (join, Access.enter role) ∈ known →
      Follows around known (layAlternatives around rest condBlock join)
        (closingsOfAlternatives rest) fun _ => []

section Guarded

variable {body : List Command} {handlers : List (List Command)} {orelse finalbody : List Command}

theorem follows_layParts
    (bodyFollows : ∀ inside, AllFollow inside (layCommands inside body) (closingsOfAll body))
    (handlersFollow : HandlersFollow around handlers)
    (orelseFollows : AllFollow around (layCommands around orelse) (closingsOfAll orelse))
    {last : BlockId} (isKnown : last ∈ known.map Prod.fst) :
    Follows around known (layParts around last body handlers orelse)
      (closingsOfHandlers handlers ++ (closingsOfAll body ++ closingsOfAll orelse))
      fun exits => (exits.1, .write) :: exits.2.map (·, .write) := by
  rw [layParts]
  apply Follows.of_eq
  · apply Follows.bind (.newDispatch? handlers)
    intro dispatch?
    generalize dispatchesEq : (dispatch?.toList.map fun dispatch =>
      (dispatch, Access.enter .handlers)) = dispatches
    have isTarget : ∀ dispatch ∈ dispatch?, (dispatch, Access.enter .handlers) ∈ dispatches := by
      intro dispatch isDispatch
      rw [← dispatchesEq]
      exact List.mem_map_of_mem (Option.mem_toList.2 isDispatch)
    have isSource : ∀ dispatch ∈ dispatch?.toList,
        dispatch ∈ (dispatches ++ known).map Prod.fst := by
      intro dispatch isDispatch
      rw [List.map_append]
      apply List.mem_append_left
      exact List.mem_map_of_mem (isTarget dispatch (Option.mem_toList.1 isDispatch))
    apply Follows.bind (handlersFollow isSource)
    intro handlerExits
    have isLast : ∀ source ∈ [last], source ∈
        ((handlerExits.map (·, Access.write)) ++ (dispatches ++ known)).map Prod.fst := by
      intro source isLast
      rw [List.mem_singleton.1 isLast]
      exact mem_blocks_append (mem_blocks_append isKnown)
    apply Follows.bind (Follows.layBody isLast fun entry =>
      Follows.of_guardedBy (bodyFollows _ List.mem_cons_self) fun dispatch isDispatch => by
        simp [isTarget dispatch isDispatch])
    intro bodyExit
    apply Follows.bind (Follows.linkTo? (by simp) fun dispatch isDispatch =>
      List.mem_append_right _ (List.mem_append_right _ (List.mem_append_left _
        (isTarget dispatch isDispatch))))
    intro _
    apply Follows.bind (.layOptional (by simp) fun entry => orelseFollows List.mem_cons_self)
    intro normalExit
    apply Follows.pure
    apply List.cons_subset_cons
    simp
  · simp

theorem encloses_of_run {command : Command} {rest : List Command} {join last : BlockId}
    {exits : BlockId × List BlockId} {sources : List BlockId} {created parted : Layout}
    {result : Unit}
    (bodyFollows : ∀ inside, AllFollow inside (layCommands inside body) (closingsOfAll body))
    (handlersFollow : HandlersFollow around handlers)
    (orelseFollows : AllFollow around (layCommands around orelse) (closingsOfAll orelse))
    (lastFollows : AllFollow around (layCommands around (command :: rest))
      (closingsOfAll (command :: rest)))
    (inRange : layout.InRange) (fits : around.Fits layout.blocks layout.size)
    (lastLt : last < layout.size)
    (createRun : (newBlock around .tryJoin []).run layout = (join, created))
    (partsRun : (layParts around last body handlers orelse).run created = (exits, parted))
    (lastRun : (layBetween around .finallyBody sources (command :: rest)
      (layCommands around (command :: rest)) join).run parted = (result, layout')) :
    Fence.Encloses ⟨body, handlers, orelse, command :: rest, around, layout.size, parted.size,
      layout'.size⟩ layout'.blocks layout'.edges := by
  have creating : Moves around [] layout created [(join, .write), (join, .enter .tryJoin)] :=
    .of_newBlock inRange createRun
  rcases of_run_newBlock createRun with ⟨rfl, createdSize, -, -, -⟩
  -- The body is entered from the block in which control arrives, and nothing else is touched.
  have knows : created.Knows [(last, .leave)] := by
    constructor
    · simp
      lia
    · simp
  have isKnown : last ∈ [(last, Access.leave)].map Prod.fst := List.mem_singleton_self _
  have parting := (follows_layParts bodyFollows handlersFollow orelseFollows isKnown knows
    (creating.fits fits) creating.inRange partsRun).1
  have partsKept : ∀ id < created.size, parted.blocks[id]? = created.blocks[id]? :=
    fun id small => parting.blocks_eq id small (by simp)
  have partsPlaced := statementsBetween_of_places (places_layParts around last body handlers orelse)
    trivial partsRun partsKept
  rcases of_run_layBetween_cons (fun entry => lastFollows (List.mem_singleton_self _))
    parting.inRange (parting.fits (creating.fits fits)) lastRun with
    ⟨finalSize, lastRole, lastKept, fromOld⟩
  have lastPlaces : Places (fun _ => True)
      (layBetween around .finallyBody sources (command :: rest)
        (layCommands around (command :: rest)) layout.size)
      (placedAll around.loopVariables (command :: rest)) fun _ _ => True :=
    .layBetween sources _ _ (.layCommands around _)
  have lastPlaced := statementsBetween_of_places lastPlaces trivial lastRun lastKept
  have partedSize := parting.size_le
  refine ⟨by lia, finalSize, Nat.le_refl _, ?_, lastRole, ?_, ?_, ?_, ?_⟩
  · rw [roleAt, lastKept _ (by lia), partsKept _ (by lia)]
    exact creating.knows.role (by simp)
  · rw [statementsBetween_congr fun id _ small => lastKept id small, ← createdSize]
    simpa only [List.map_append, map_placedByHandlers, map_placedAll] using partsPlaced
  · simpa only [map_placedAll] using lastPlaced
  · intro jump target goes
    rcases fits jump target goes with ⟨small, role, isRole, hasRole⟩
    refine ⟨small, role, isRole, ?_⟩
    rw [roleAt, lastKept _ (by lia), partsKept _ (by lia), ← roleAt, creating.role_eq _ small,
      hasRole]
  · rintro edge drawn ⟨large, small⟩
    rcases fromOld edge drawn small with drawn | toLast
    · rcases parting.entered edge drawn with old | large | ⟨role, isKnown⟩ | sends
      · have := creating.inRange edge old
        lia
      · exact .inl ⟨by lia, (parting.inRange edge drawn).2⟩
      · simp at isKnown
      · rw [statementsAt, lastKept _ small]
        exact .inr (.inr sends)
    · exact .inr (.inl toLast)

/-- What is laid out after the join of a guarded body. -/
theorem follows_afterJoin
    (bodyFollows : ∀ inside, AllFollow inside (layCommands inside body) (closingsOfAll body))
    (handlersFollow : HandlersFollow around handlers)
    (orelseFollows : AllFollow around (layCommands around orelse) (closingsOfAll orelse))
    (lastFollows : AllFollow around (layCommands around finalbody) (closingsOfAll finalbody))
    {last join : BlockId} {role : BlockRole} (isSource : last ∈ known.map Prod.fst)
    (isTarget : (join, Access.enter role) ∈ known) (isResult : (join, Access.write) ∈ known) :
    Follows around known
      (do
        let exits ← layParts around last body handlers orelse
        layBetween around .finallyBody (leaving finalbody exits) finalbody
          (layCommands around finalbody) join
        return join)
      (closingsOfHandlers handlers ++ closingsOfAll body ++ closingsOfAll orelse ++
        closingsOfAll finalbody) fun next => [(next, .write)] := by
  apply Follows.of_eq
  · apply Follows.bind (follows_layParts bodyFollows handlersFollow orelseFollows isSource)
    intro exits
    have areSources : ∀ source ∈ leaving finalbody exits, source ∈
        (((exits.1, Access.write) :: exits.2.map (·, Access.write)) ++ known).map Prod.fst := by
      intro source isLeft
      have isExit : source = exits.1 ∨ source ∈ exits.2 := by
        rw [leaving] at isLeft
        split at isLeft
        · simpa [or_comm] using isLeft
        · simpa using isLeft
      simp only [List.cons_append, List.map_cons, List.map_append, List.map_map, List.mem_cons,
        List.mem_append]
      rcases isExit with isNormal | isHandler
      · exact .inl isNormal
      · exact .inr (.inl (by simpa using isHandler))
    apply Follows.bind (Follows.layBetween areSources (List.mem_append_right _ isTarget)
      fun entry => lastFollows List.mem_cons_self)
    intro _
    exact .pure (by simp [isResult])
  · simp

/-- A guarded body is laid out behind a block, and a last clause makes it a fence. -/
theorem follows_guarded
    (bodyFollows : ∀ inside, AllFollow inside (layCommands inside body) (closingsOfAll body))
    (handlersFollow : HandlersFollow around handlers)
    (orelseFollows : AllFollow around (layCommands around orelse) (closingsOfAll orelse))
    (lastFollows : AllFollow around (layCommands around finalbody) (closingsOfAll finalbody)) :
    AllFollow around (layCommand around (.guarded body handlers orelse finalbody))
      (closings (.guarded body handlers orelse finalbody)) := by
  intro known last isKnown layout layout' next knows fits inRange run
  rw [layCommand_guarded] at run
  rcases exists_of_run_bind run with ⟨join, created, createRun, run⟩
  have creating : Moves around known layout created [(join, .write), (join, .enter .tryJoin)] :=
    .of_newBlock inRange createRun
  have isSource : last ∈ ([(join, Access.write), (join, .enter .tryJoin)] ++ known).map Prod.fst :=
    mem_blocks_append (List.mem_map_of_mem isKnown)
  have isTarget : (join, Access.enter .tryJoin) ∈
      [(join, Access.write), (join, .enter .tryJoin)] ++ known := by simp
  have createdKnows := creating.knows.append (creating.knows_of_knows knows)
  rcases follows_afterJoin bodyFollows handlersFollow orelseFollows lastFollows isSource isTarget
    (by simp) createdKnows (creating.fits fits) creating.inRange run with ⟨moves, fences, fenced⟩
  refine ⟨creating.trans moves, ?_⟩
  rcases exists_of_run_bind run with ⟨exits, parted, partsRun, run⟩
  rcases exists_of_run_bind run with ⟨_, _, lastRun, pureRun⟩
  rcases of_run_pure pureRun with ⟨rfl, rfl⟩
  rcases of_run_newBlock createRun with ⟨rfl, createdSize, -, -, -⟩
  cases finalbody with
  | nil =>
      refine ⟨fences, ?_, fenced.encloses, ?_, fenced.aside, fenced.distinct⟩
      · rw [fenced.commands_eq, closings]
        simp
      · exact fun fence isFence => Nat.le_trans creating.size_le (fenced.size_le fence isFence)
  | cons command rest =>
      have encloses := encloses_of_run bodyFollows handlersFollow orelseFollows lastFollows inRange
        fits (knows.lt _ isKnown) createRun partsRun lastRun
      have isClosing : closings (.guarded body handlers orelse (command :: rest)) =
          closingsOfHandlers handlers ++ closingsOfAll body ++ closingsOfAll orelse ++
            closingsOfAll (command :: rest) ++
              [.guarded body handlers orelse (command :: rest)] := by
        rw [closings]
        rfl
      rw [isClosing]
      exact ⟨_, fenced.close (by lia) encloses rfl⟩

end Guarded

/-! ### All commands -/

theorem follows_place (statement : Node) :
    AllFollow around (layCommand around (.place statement)) (closings (.place statement)) := by
  intro known last isKnown
  rw [layCommand]
  apply Follows.of_eq
  · apply Follows.bind (.append isKnown statement)
    intro _
    exact .pure (by simpa using isKnown)
  · rfl

theorem follows_jump {jump : Jump} {statement : Node} (isJump : statement.jump? = some jump) :
    AllFollow around (layCommand around (.jump jump statement))
      (closings (.jump jump statement)) := by
  intro known last isKnown
  have regrouped : layCommand around (.jump jump statement) last =
      ((append last statement >>= fun _ => linkTo? last (around.target? jump)) >>= fun _ =>
        newBlock around .unreachable []) := by
    rw [layCommand, bind_assoc]
  rw [regrouped]
  apply Follows.of_eq
  · apply Follows.bind (.jump isKnown isJump)
    intro _
    exact (Follows.newBlock around .unreachable []).weaken (by simp)
  · rfl

section Constructs

variable {cond head header : Node} {bindings bound : List Node} {kind : LoopKind}
  {command : Command} {body orelse handler rest : List Command} {others : Alternatives}
  {handlers : List (List Command)}

/-- A new block that is entered from another one, and a body behind it. -/
theorem follows_headed {α : Type} {role bodyRole : BlockRole} {nodes : List Node}
    {source : BlockId} {lay : BlockId → StateM Layout BlockId} {commands commands' : List Command}
    {next : BlockId → BlockId → StateM Layout α} {results : α → List (BlockId × Access)}
    (isSource : source ∈ known.map Prod.fst) (layFollows : AllFollow around lay commands)
    (nextFollows : ∀ headerBlock exit, Follows around
      ([(exit, .write), (headerBlock, .enter role)] ++ known) (next headerBlock exit) commands'
      results) :
    Follows around known
      (do
        let headerBlock ← newBlock around role nodes
        link source headerBlock
        let exit ← layBody around bodyRole [headerBlock] lay
        next headerBlock exit) (commands ++ commands') results := by
  apply Follows.of_eq
  · apply Follows.bind (.newBlock around role nodes)
    intro headerBlock
    have isHeader : (headerBlock, Access.enter role) ∈
        [(headerBlock, Access.write), (headerBlock, .enter role)] ++ known := by simp
    apply Follows.bind (.link (mem_blocks_append isSource) isHeader)
    intro _
    apply Follows.bind (.layBody (by simp) fun entry => layFollows List.mem_cons_self)
    intro exit
    apply (nextFollows headerBlock exit).mono
    intro entry
    simp only [List.cons_append, List.nil_append, List.mem_cons]
    tauto
  · simp

theorem follows_branch
    (bodyFollows : AllFollow around (layCommands around body) (closingsOfAll body))
    (othersFollow : AlternativesFollow around others) :
    AllFollow around (layCommand around (.branch cond body others))
      (closings (.branch cond body others)) := by
  intro known last isKnown
  rw [layCommand]
  apply follows_headed (List.mem_map_of_mem isKnown) bodyFollows
  intro condBlock exit
  apply Follows.of_eq
  · apply Follows.bind (.newBlock around .conditionalJoin [])
    intro join
    have isJoin : (join, Access.enter .conditionalJoin) ∈ ([(join, Access.write),
        (join, .enter .conditionalJoin)] ++
          ([(exit, .write), (condBlock, .enter .ifCond)] ++ known)) := by simp
    apply Follows.bind (.link (by simp) isJoin)
    intro _
    apply Follows.bind (othersFollow (by simp) isJoin)
    intro _
    exact .pure (by simp)
  · simp

/-- The rounds of a loop and what runs when it is left through its head. -/
theorem follows_rounds {headBlock join : BlockId}
    (bodyFollows : ∀ inside, AllFollow inside (layCommands inside body) (closingsOfAll body))
    (orelseFollows : AllFollow around (layCommands around orelse) (closingsOfAll orelse))
    (isHead : (headBlock, Access.enter kind.headRole) ∈ known)
    (isJoin : (join, Access.enter kind.joinRole) ∈ known)
    (isResult : (join, Access.write) ∈ known) :
    let inside := around.insideLoop { head := headBlock, exit := join } bound
    Follows around known
      (do
        let bodyExit ← layBody inside kind.bodyRole [headBlock] (layCommands inside body)
        link bodyExit headBlock
        layBetween around .loopElseBody [headBlock] orelse (layCommands around orelse) join
        return join) (closingsOfAll body ++ closingsOfAll orelse) fun next => [(next, .write)] := by
  intro inside
  have isSource : ∀ source ∈ [headBlock], source ∈ known.map Prod.fst := by
    intro source isHeadBlock
    rw [List.mem_singleton.1 isHeadBlock]
    exact List.mem_map_of_mem isHead
  have bodyFollowsHere : ∀ entry, Follows around ((entry, .write) :: known)
      (layCommands inside body entry) (closingsOfAll body) fun exit => [(exit, .write)] := by
    intro entry
    exact (bodyFollows inside List.mem_cons_self).of_insideLoop (List.mem_cons_of_mem _ isHead)
      (List.mem_cons_of_mem _ isJoin)
  apply Follows.of_eq
  · apply Follows.bind (.layBody isSource bodyFollowsHere)
    intro exit
    apply Follows.bind (.link (by simp) (List.mem_append_right _ isHead))
    intro _
    have isSource' : ∀ source ∈ [headBlock], source ∈
        ([] ++ ([(exit, Access.write)] ++ known)).map Prod.fst :=
      fun source isHeadBlock => List.mem_cons_of_mem _ (isSource source isHeadBlock)
    have isJoin' : (join, Access.enter kind.joinRole) ∈ [] ++ ([(exit, .write)] ++ known) :=
      List.mem_cons_of_mem _ isJoin
    apply Follows.bind (.layBetween isSource' isJoin' fun entry => orelseFollows List.mem_cons_self)
    intro _
    exact .pure (by simp [isResult])
  · simp

theorem follows_loop
    (bodyFollows : ∀ inside, AllFollow inside (layCommands inside body) (closingsOfAll body))
    (orelseFollows : AllFollow around (layCommands around orelse) (closingsOfAll orelse)) :
    AllFollow around (layCommand around (.loop kind head bound body orelse))
      (closings (.loop kind head bound body orelse)) := by
  intro known last isKnown
  rw [layCommand]
  apply Follows.of_eq
  · apply Follows.bind (.newBlock around kind.headRole [head])
    intro headBlock
    have isHead : (headBlock, Access.enter kind.headRole) ∈
        [(headBlock, Access.write), (headBlock, .enter kind.headRole)] ++ known := by simp
    apply Follows.bind (.link (mem_blocks_append (List.mem_map_of_mem isKnown)) isHead)
    intro _
    apply Follows.bind (.newBlock around kind.joinRole [])
    intro join
    exact follows_rounds bodyFollows orelseFollows (List.mem_append_right _ isHead) (by simp)
      (by simp)
  · rfl

theorem follows_bracket
    (bodyFollows : AllFollow around (layCommands around body) (closingsOfAll body)) :
    AllFollow around (layCommand around (.bracket bindings body))
      (closings (.bracket bindings body)) := by
  intro known last isKnown
  have withExit : layCommand around (.bracket bindings body) last = (do
      let bindingBlock ← newBlock around .withBindings bindings
      link last bindingBlock
      let exit ← layBody around .withBody [bindingBlock] (layCommands around body)
      return exit) := by
    simp [layCommand]
  rw [withExit]
  apply Follows.of_eq
  · apply follows_headed (List.mem_map_of_mem isKnown) bodyFollows
    intro bindingBlock exit
    exact .pure (by simp)
  · simp [closings]

theorem alternativesFollow_none : AlternativesFollow around .none := by
  intro known condBlock join role isSource isTarget
  rw [layAlternatives]
  exact .link isSource isTarget

theorem alternativesFollow_further
    (bodyFollows : AllFollow around (layCommands around body) (closingsOfAll body))
    (othersFollow : AlternativesFollow around others) :
    AlternativesFollow around (.further cond body others) := by
  intro known condBlock join role isSource isTarget
  rw [layAlternatives]
  apply follows_headed isSource bodyFollows
  intro furtherBlock exit
  have isTarget' : (join, Access.enter role) ∈
      [(exit, Access.write), (furtherBlock, .enter .elifCond)] ++ known :=
    List.mem_append_right _ isTarget
  apply Follows.of_eq
  · apply Follows.bind (.link (by simp) isTarget')
    intro _
    exact othersFollow (by simp) isTarget'
  · rfl

theorem alternativesFollow_otherwise
    (bodyFollows : AllFollow around (layCommands around body) (closingsOfAll body)) :
    AlternativesFollow around (.otherwise header body) := by
  intro known condBlock join role isSource isTarget
  rw [layAlternatives]
  apply Follows.of_eq
  · apply follows_headed isSource bodyFollows
    intro headerBlock exit
    exact .link (by simp) (List.mem_append_right _ isTarget)
  · simp [closingsOfAlternatives]

theorem handlersFollow_nil : HandlersFollow around [] := by
  intro known dispatches areSources
  rw [layHandlers]
  exact .pure (List.nil_subset _)

theorem handlersFollow_cons
    (handlerFollows : AllFollow around (layCommands around handler) (closingsOfAll handler))
    (handlersFollow : HandlersFollow around handlers) :
    HandlersFollow around (handler :: handlers) := by
  intro known dispatches areSources
  rw [layHandlers]
  apply Follows.of_eq
  · apply Follows.bind (.layBody areSources fun entry => handlerFollows List.mem_cons_self)
    intro exit
    have areSources' : ∀ dispatch ∈ dispatches, dispatch ∈
        ([(exit, Access.write)] ++ known).map Prod.fst :=
      fun dispatch isDispatch => List.mem_cons_of_mem _ (areSources dispatch isDispatch)
    apply Follows.bind (handlersFollow areSources')
    intro exits
    exact .pure (by simp)
  · simp [closingsOfHandlers]

theorem follows_nil : AllFollow around (layCommands around []) (closingsOfAll []) := by
  intro known last isKnown
  rw [layCommands]
  exact .pure (by simpa using isKnown)

theorem follows_cons
    (commandFollows : AllFollow around (layCommand around command) (closings command))
    (restFollows : AllFollow around (layCommands around rest) (closingsOfAll rest)) :
    AllFollow around (layCommands around (command :: rest)) (closingsOfAll (command :: rest)) := by
  intro known last isKnown
  rw [layCommands]
  apply Follows.bind (commandFollows isKnown)
  intro next
  exact restFollows List.mem_cons_self

end Constructs

mutual

theorem layCommand_follows (around : Surroundings) : (command : Command) → JumpsByName command →
    AllFollow around (layCommand around command) (closings command)
  | .place statement, _ => follows_place statement
  | .jump _ _, isJump => follows_jump isJump
  | .branch _ body rest, ⟨bodyJumps, restJump⟩ =>
      follows_branch (layCommands_follow around body bodyJumps)
        (layAlternatives_follow around rest restJump)
  | .loop _ _ _ body orelse, ⟨bodyJumps, elseJumps⟩ =>
      follows_loop (fun inside => layCommands_follow inside body bodyJumps)
        (layCommands_follow around orelse elseJumps)
  | .bracket _ body, bodyJumps => follows_bracket (layCommands_follow around body bodyJumps)
  | .guarded body handlers orelse finalbody, ⟨bodyJumps, handlersJump, elseJumps, lastJumps⟩ =>
      follows_guarded (fun inside => layCommands_follow inside body bodyJumps)
        (layHandlers_follow around handlers handlersJump)
        (layCommands_follow around orelse elseJumps)
        (layCommands_follow around finalbody lastJumps)

theorem layCommands_follow (around : Surroundings) : (commands : List Command) →
    AllJumpByName commands →
      AllFollow around (layCommands around commands) (closingsOfAll commands)
  | [], _ => follows_nil
  | command :: rest, ⟨jumps, restJumps⟩ =>
      follows_cons (layCommand_follows around command jumps)
        (layCommands_follow around rest restJumps)

theorem layAlternatives_follow (around : Surroundings) : (rest : Alternatives) →
    AlternativesJumpByName rest → AlternativesFollow around rest
  | .none, _ => alternativesFollow_none
  | .further _ body rest, ⟨bodyJumps, restJump⟩ =>
      alternativesFollow_further (layCommands_follow around body bodyJumps)
        (layAlternatives_follow around rest restJump)
  | .otherwise _ body, bodyJumps =>
      alternativesFollow_otherwise (layCommands_follow around body bodyJumps)

theorem layHandlers_follow (around : Surroundings) : (handlers : List (List Command)) →
    HandlersJumpByName handlers → HandlersFollow around handlers
  | [], _ => handlersFollow_nil
  | handler :: rest, ⟨jumps, restJump⟩ =>
      handlersFollow_cons (layCommands_follow around handler jumps)
        (layHandlers_follow around rest restJump)

end

end Layout

end FlowAnalysis
