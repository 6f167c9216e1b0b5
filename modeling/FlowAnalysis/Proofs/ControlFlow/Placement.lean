import FlowAnalysis.Proofs.ControlFlow.Drawing
import FlowAnalysis.Proofs.ControlFlow.Nesting
import Mathlib.Data.List.Perm.Basic

/-!
# Every statement is placed once

The blocks of the graph of a program hold the nodes that its commands place, each as often as it
occurs among them, and the loop variables of a block are those of the loops around what it holds. A
block to which a statement is appended was made in the same surroundings, so it is enough to follow
which blocks are open in which surroundings.
-/

namespace FlowAnalysis

namespace Command

mutual

/-- The nodes that a command places, each with the variables of the loops around it. -/
def placed (loops : List Node) : Command → List (Node × List Node)
  | .place statement => [(statement, loops)]
  | .jump _ statement => [(statement, loops)]
  | .branch cond body rest => (cond, loops) :: (placedAll loops body ++ placedOtherwise loops rest)
  | .loop _ head bound body orelse =>
      (head, loops) :: (placedAll (loops ++ bound) body ++ placedAll loops orelse)
  | .bracket bindings body => bindings.map (·, loops) ++ placedAll loops body
  | .guarded body handlers orelse finalbody =>
      placedAll loops body ++ (placedByHandlers loops handlers ++
        (placedAll loops orelse ++ placedAll loops finalbody))

def placedAll (loops : List Node) : List Command → List (Node × List Node)
  | [] => []
  | command :: rest => placed loops command ++ placedAll loops rest

def placedOtherwise (loops : List Node) : Alternatives → List (Node × List Node)
  | .none => []
  | .further cond body rest => (cond, loops) :: (placedAll loops body ++ placedOtherwise loops rest)
  | .otherwise header body => (header, loops) :: placedAll loops body

def placedByHandlers (loops : List Node) : List (List Command) → List (Node × List Node)
  | [] => []
  | handler :: rest => placedAll loops handler ++ placedByHandlers loops rest

end

mutual

/-- The nodes that a command places are those of its nesting. -/
theorem map_placed : (command : Command) → (loops : List Node) →
    (placed loops command).map Prod.fst = (nesting command).labels
  | .place statement, loops => rfl
  | .jump _ statement, loops => rfl
  | .branch cond body rest, loops => by
      simp [placed, nesting, Forest.labels, map_placedAll body, map_placedOtherwise rest]
  | .loop _ head bound body orelse, loops => by
      simp [placed, nesting, Forest.labels, map_placedAll body, map_placedAll orelse]
  | .bracket bindings body, loops => by
      simp [placed, nesting, map_placedAll body, Function.comp_def]
  | .guarded body handlers orelse finalbody, loops => by
      simp [placed, nesting, map_placedAll body, map_placedByHandlers handlers,
        map_placedAll orelse, map_placedAll finalbody]

theorem map_placedAll : (commands : List Command) → (loops : List Node) →
    (placedAll loops commands).map Prod.fst = (nestingAll commands).labels
  | [], loops => rfl
  | command :: rest, loops => by
      simp [placedAll, nestingAll, map_placed command, map_placedAll rest]

theorem map_placedOtherwise : (rest : Alternatives) → (loops : List Node) →
    (placedOtherwise loops rest).map Prod.fst = (nestingAlternatives rest).labels
  | .none, loops => rfl
  | .further cond body rest, loops => by
      simp [placedOtherwise, nestingAlternatives, Forest.labels, map_placedAll body,
        map_placedOtherwise rest]
  | .otherwise header body, loops => by
      simp [placedOtherwise, nestingAlternatives, Forest.labels, map_placedAll body]

theorem map_placedByHandlers : (handlers : List (List Command)) → (loops : List Node) →
    (placedByHandlers loops handlers).map Prod.fst = (nestingHandlers handlers).labels
  | [], loops => rfl
  | handler :: rest, loops => by
      simp [placedByHandlers, nestingHandlers, map_placedAll handler, map_placedByHandlers rest]

end

end Command

/-- The statements of a block with the loop variables of the block. -/
def Block.placed (block : Block) : List (Node × List Node) :=
  block.statements.map (·, block.loopVariables)

namespace Layout

/-- The statements of all blocks with the loop variables of their blocks. -/
def placed (layout : Layout) : List (Node × List Node) :=
  layout.blocks.flatMap Block.placed

/-- A block was made in surroundings with the given loops. -/
def Opens (loops : List Node) (id : BlockId) (layout : Layout) : Prop :=
  (layout.blocks[id]?).map Block.loopVariables = some loops

/-- A step that is taken where something holds places some statements, and leaves behind a result
and a layout of which something holds. -/
def Places {α : Type} (before : Layout → Prop) (step : StateM Layout α)
    (statements : List (Node × List Node)) (after : α → Layout → Prop) : Prop :=
  ∀ layout, before layout →
    (step.run layout).2.placed.Perm (layout.placed ++ statements) ∧
      after (step.run layout).1 (step.run layout).2

theorem kept_opens (loops : List Node) (id : BlockId) : Kept (Opens loops id) where
  newBlock around role nodes layout opens := by
    change ((layout.blocks ++ [_])[id]?).map Block.loopVariables = some loops
    rcases Option.map_eq_some_iff.1 opens with ⟨block, found, sameLoops⟩
    rcases List.getElem?_eq_some_iff.1 found with ⟨small, -⟩
    rw [List.getElem?_append_left small, found]
    exact congrArg some sameLoops
  link source target layout opens := by
    change Opens loops id (if (source, target) ∈ layout.edges then layout else _)
    split <;> exact opens
  append other statement layout opens := by
    change ((layout.blocks.modify other _)[id]?).map Block.loopVariables = some loops
    rw [List.getElem?_modify]
    rcases Option.map_eq_some_iff.1 opens with ⟨block, found, sameLoops⟩
    rw [found]
    change some (Block.loopVariables (if other = id then _ else _)) = some loops
    split <;> simp [sameLoops]

namespace Places

variable {α β : Type} {before : Layout → Prop} {loops : List Node}

theorem pure {value : α} {after : α → Layout → Prop}
    (holds : ∀ layout, before layout → after value layout) :
    Places before (pure value) [] after := by
  intro layout held
  refine ⟨?_, holds layout held⟩
  rw [List.append_nil]
  exact .refl _

theorem bind {first : StateM Layout α} {rest : α → StateM Layout β}
    {statements statements' : List (Node × List Node)} {between : α → Layout → Prop}
    {after : β → Layout → Prop} (firstPlaces : Places before first statements between)
    (restPlaces : ∀ value, Places (between value) (rest value) statements' after) :
    Places before (first >>= rest) (statements ++ statements') after := by
  intro layout holds
  rcases firstPlaces layout holds with ⟨placed, between⟩
  rcases restPlaces _ _ between with ⟨placed', after⟩
  refine ⟨placed'.trans ?_, after⟩
  rw [← List.append_assoc]
  exact placed.append_right _

/-- What a step keeps still holds behind it. -/
theorem keeping {step : StateM Layout α} {statements : List (Node × List Node)}
    {holds : Layout → Prop} {after : α → Layout → Prop}
    (places : Places holds step statements after) (keeps : Keeps holds step) :
    Places holds step statements fun _ => holds :=
  fun layout held => ⟨(places layout held).1, keeps layout held⟩

theorem forget {step : StateM Layout α} {statements : List (Node × List Node)}
    {after : α → Layout → Prop} (places : Places before step statements after) :
    Places before step statements fun _ _ => True :=
  fun layout holds => ⟨(places layout holds).1, trivial⟩

theorem of_perm {step : StateM Layout α} {statements statements' : List (Node × List Node)}
    {after : α → Layout → Prop} (places : Places before step statements after)
    (same : statements.Perm statements') : Places before step statements' after :=
  fun layout holds =>
    ⟨(places layout holds).1.trans (same.append_left _), (places layout holds).2⟩

theorem of_eq {step : StateM Layout α} {statements statements' : List (Node × List Node)}
    {after : α → Layout → Prop} (places : Places before step statements after)
    (same : statements = statements') : Places before step statements' after :=
  same ▸ places

theorem newBlock (around : Surroundings) (role : BlockRole) (nodes : List Node) :
    Places before (newBlock around role nodes) (nodes.map (·, around.loopVariables))
      (Opens around.loopVariables) := by
  intro layout _
  constructor
  · change ((layout.blocks ++ [_]).flatMap Block.placed).Perm _
    simp [placed, Block.placed]
  · change ((layout.blocks ++ [_])[layout.blocks.length]?).map Block.loopVariables = _
    simp

theorem link (source target : BlockId) :
    Places before (link source target) [] fun _ _ => True := by
  intro layout _
  refine ⟨?_, trivial⟩
  change (if (source, target) ∈ layout.edges then layout else _).placed.Perm _
  split <;> simp [placed]

theorem append (id : BlockId) (statement : Node) :
    Places (Opens loops id) (append id statement) [(statement, loops)] fun _ => Opens loops id := by
  intro layout opens
  refine ⟨?_, (kept_opens loops id).append id statement layout opens⟩
  change ((layout.blocks.modify id _).flatMap Block.placed).Perm
    (layout.blocks.flatMap Block.placed ++ _)
  rcases Option.map_eq_some_iff.1 opens with ⟨block, found, rfl⟩
  rcases List.getElem?_eq_some_iff.1 found with ⟨small, isBlock⟩
  have split : layout.blocks.take id ++ block :: layout.blocks.drop (id + 1) = layout.blocks := by
    rw [← isBlock, List.getElem_cons_drop, List.take_append_drop]
  rw [List.modify_eq_take_cons_drop small, isBlock]
  conv_rhs => rw [← split]
  simp only [List.flatMap_append, List.flatMap_cons, List.append_assoc, Block.placed,
    List.map_append, List.map_cons, List.map_nil]
  refine .append_left _ (.append_left _ ?_)
  exact List.perm_append_comm

theorem linkAll (sources : List BlockId) (target : BlockId) :
    Places before (linkAll sources target) [] fun _ _ => True := by
  induction sources generalizing before with
  | nil => exact .pure fun _ _ => trivial
  | cons source sources ih =>
      rw [linkAll_cons]
      exact .bind (link source target) fun _ => ih

theorem linkTo? (source : BlockId) (target? : Option BlockId) :
    Places before (linkTo? source target?) [] fun _ _ => True := by
  cases target? with
  | none => exact .pure fun _ _ => trivial
  | some target => exact link source target

variable {around : Surroundings} {role : BlockRole} {statements : List (Node × List Node)}
  {lay : BlockId → StateM Layout BlockId}

theorem layBody (sources : List BlockId)
    (layPlaces : ∀ id, Places (Opens around.loopVariables id) (lay id) statements
      (Opens around.loopVariables)) :
    Places before (layBody around role sources lay) statements (Opens around.loopVariables) := by
  have kept := fun exit => kept_opens around.loopVariables exit
  have places : Places before (Layout.layBody around role sources lay)
      ([] ++ (statements ++ ([] ++ []))) (Opens around.loopVariables) := by
    refine .bind (newBlock around role []) fun entry => ?_
    refine .bind (layPlaces entry) fun exit => ?_
    refine .bind ((linkAll sources entry).keeping ((kept exit).linkAll sources entry)) fun _ => ?_
    exact .pure fun _ opens => opens
  simpa using places

theorem layBetween (sources : List BlockId) (body : List Command) (target : BlockId)
    (layPlaces : ∀ id, Places (Opens around.loopVariables id) (lay id)
      (Command.placedAll loops body) (Opens around.loopVariables)) :
    Places before (layBetween around role sources body lay target)
      (Command.placedAll loops body) fun _ _ => True := by
  cases body with
  | nil => exact linkAll sources target
  | cons command rest =>
      rw [← List.append_nil (Command.placedAll loops _)]
      exact .bind (layBody sources layPlaces) fun exit => link exit target

theorem layOptional (source : BlockId) (body : List Command)
    (layPlaces : ∀ id, Places (Opens around.loopVariables id) (lay id)
      (Command.placedAll loops body) (Opens around.loopVariables)) :
    Places before (layOptional around role source body lay)
      (Command.placedAll loops body) fun _ _ => True := by
  cases body with
  | nil => exact .pure fun _ _ => trivial
  | cons command rest => exact (layBody [source] layPlaces).forget

theorem newDispatch? (handlers : List (List Command)) :
    Places before (newDispatch? around handlers) [] fun _ _ => True := by
  rw [Layout.newDispatch?]
  split
  · exact .pure fun _ _ => trivial
  · rw [map_eq_pure_bind, ← List.append_nil []]
    exact .bind (newBlock around .handlers []) fun dispatch => .pure fun _ _ => trivial

mutual

theorem layCommand (around : Surroundings) : (command : Command) → (last : BlockId) →
    Places (Opens around.loopVariables last) (layCommand around command last)
      (Command.placed around.loopVariables command) (Opens around.loopVariables)
  | .place statement, last => by
      rw [Layout.layCommand]
      exact .bind (append last statement) fun _ => .pure fun _ opens => opens
  | .jump target statement, last => by
      rw [Layout.layCommand]
      apply bind (append last statement)
      intro _
      exact .bind (linkTo? last _) fun _ => newBlock around .unreachable []
  | .branch cond body rest, last => by
      have kept := fun join => kept_opens around.loopVariables join
      rw [Layout.layCommand]
      apply of_eq
      · apply bind (newBlock around .ifCond [cond])
        intro condBlock
        apply bind (link last condBlock)
        intro _
        apply bind (layBody [condBlock] (layCommands around body))
        intro bodyExit
        apply bind (newBlock around .conditionalJoin [])
        intro join
        apply bind ((link bodyExit join).keeping ((kept join).link bodyExit join))
        intro _
        apply bind ((layAlternatives around rest condBlock join).keeping
          ((kept join).layAlternatives around rest condBlock join))
        intro _
        exact .pure fun _ opens => opens
      · simp [Command.placed]
  | .loop kind head bound body orelse, last => by
      have kept := fun join => kept_opens around.loopVariables join
      rw [Layout.layCommand]
      apply of_eq
      · apply bind (newBlock around kind.headRole [head])
        intro headBlock
        apply bind (link last headBlock)
        intro _
        apply bind (newBlock around kind.joinRole [])
        intro join
        have bodyPlaces := layCommands (around.insideLoop ⟨headBlock, join⟩ bound) body
        change ∀ id, Places _ _ (Command.placedAll (around.loopVariables ++ bound) body) _
          at bodyPlaces
        apply bind ((layBody [headBlock] bodyPlaces).keeping
          ((kept join).layBody [headBlock] ((kept join).layCommands _ body)))
        intro bodyExit
        apply bind ((link bodyExit headBlock).keeping
          ((kept join).link bodyExit headBlock))
        intro _
        apply bind ((layBetween [headBlock] orelse join (layCommands around orelse)).keeping
          ((kept join).layBetween [headBlock] orelse join
            ((kept join).layCommands around orelse)))
        intro _
        exact .pure fun _ opens => opens
      · simp [Command.placed]
  | .bracket bindings body, last => by
      rw [Layout.layCommand]
      apply bind (newBlock around .withBindings bindings)
      intro bindingBlock
      apply bind (link last bindingBlock)
      intro _
      exact layBody [bindingBlock] (layCommands around body)
  | .guarded body handlers orelse finalbody, last => by
      have kept := fun join => kept_opens around.loopVariables join
      rw [Layout.layCommand]
      apply of_perm
      · apply bind (newBlock around .tryJoin [])
        intro join
        apply bind ((newDispatch? handlers).keeping ((kept join).newDispatch? handlers))
        intro dispatch?
        apply bind ((layHandlers around dispatch?.toList handlers).keeping
          ((kept join).layHandlers around dispatch?.toList handlers))
        intro handlerExits
        have bodyPlaces := layCommands (around.guardedBy (dispatch?.getD around.handler)) body
        change ∀ id, Places _ _ (Command.placedAll around.loopVariables body) _ at bodyPlaces
        apply bind ((layBody [last] bodyPlaces).keeping
          ((kept join).layBody [last] ((kept join).layCommands _ body)))
        intro bodyExit
        apply bind ((linkTo? bodyExit dispatch?).keeping
          ((kept join).linkTo? bodyExit dispatch?))
        intro _
        apply bind ((layOptional bodyExit orelse (layCommands around orelse)).keeping
          ((kept join).layOptional bodyExit orelse ((kept join).layCommands around orelse)))
        intro normalExit
        apply bind ((layBetween _ finalbody join (layCommands around finalbody)).keeping
          ((kept join).layBetween _ finalbody join ((kept join).layCommands around finalbody)))
        intro _
        exact .pure fun _ opens => opens
      · simp only [List.map_nil, List.nil_append, List.append_nil, Command.placed]
        exact List.perm_append_comm_assoc _ _ _

theorem layCommands (around : Surroundings) : (commands : List Command) → (last : BlockId) →
    Places (Opens around.loopVariables last) (layCommands around commands last)
      (Command.placedAll around.loopVariables commands) (Opens around.loopVariables)
  | [], last => by
      rw [Layout.layCommands]
      exact .pure fun _ opens => opens
  | command :: rest, last => by
      rw [Layout.layCommands]
      exact .bind (layCommand around command last) (layCommands around rest)

theorem layAlternatives (around : Surroundings) : (rest : Alternatives) →
    (condBlock join : BlockId) → {before : Layout → Prop} →
    Places before (layAlternatives around rest condBlock join)
      (Command.placedOtherwise around.loopVariables rest) fun _ _ => True
  | .none, condBlock, join, _ => by
      rw [Layout.layAlternatives]
      exact link condBlock join
  | .further cond body rest, condBlock, join, _ => by
      rw [Layout.layAlternatives]
      apply bind (newBlock around .elifCond [cond])
      intro furtherBlock
      apply bind (link condBlock furtherBlock)
      intro _
      apply bind (layBody [furtherBlock] (layCommands around body))
      intro bodyExit
      apply bind (link bodyExit join)
      intro _
      exact layAlternatives around rest furtherBlock join
  | .otherwise header body, condBlock, join, _ => by
      rw [Layout.layAlternatives]
      apply of_eq
      · apply bind (newBlock around .elseCond [header])
        intro headerBlock
        apply bind (link condBlock headerBlock)
        intro _
        apply bind (layBody [headerBlock] (layCommands around body))
        intro bodyExit
        exact link bodyExit join
      · simp [Command.placedOtherwise]

theorem layHandlers (around : Surroundings) (dispatches : List BlockId) :
    (handlers : List (List Command)) → {before : Layout → Prop} →
    Places before (layHandlers around dispatches handlers)
      (Command.placedByHandlers around.loopVariables handlers) fun _ _ => True
  | [], _ => by
      rw [Layout.layHandlers]
      exact .pure fun _ _ => trivial
  | handler :: rest, _ => by
      rw [Layout.layHandlers]
      apply of_eq
      · apply bind (layBody dispatches (layCommands around handler))
        intro handlerExit
        apply bind (layHandlers around dispatches rest)
        intro exits
        exact .pure fun _ _ => trivial
      · simp [Command.placedByHandlers]

end

theorem layProgram (program : List Command) :
    Places (fun _ => True) (layProgram program) (Command.placedAll [] program) fun _ _ => True := by
  rw [Layout.layProgram]
  apply of_eq
  · apply bind (newBlock _ .exceptionalExit [])
    intro exceptionalExit
    apply bind (newBlock _ .entry [])
    intro entry
    have bodyPlaces := layCommands ⟨none, exceptionalExit, []⟩ program
    change ∀ id, Places _ _ (Command.placedAll [] program) _ at bodyPlaces
    apply bind (bodyPlaces entry)
    intro _
    exact .pure fun _ _ => trivial
  · simp

end Places

end Layout

namespace Graph

theorem exists_block_of_mem {graph : Graph} {node : Node} {id : BlockId}
    (member : node ∈ graph.statements id) :
    ∃ small : id < graph.blocks.length, graph.statements id = graph.blocks[id].statements := by
  rw [statements, block?] at member ⊢
  cases found : graph.blocks[id]? with
  | none =>
      rw [found] at member
      exact absurd member List.not_mem_nil
  | some block =>
      rcases List.getElem?_eq_some_iff.1 found with ⟨small, rfl⟩
      exact ⟨small, rfl⟩

/-- The blocks of the graph of a program hold what the program places. -/
theorem placed_ofCommands (program : List Command) :
    ((ofCommands program).blocks.flatMap Block.placed).Perm (Command.placedAll [] program) :=
  (Layout.Places.layProgram program {} trivial).1

theorem statements_ofCommands (program : List Command) :
    ((ofCommands program).blocks.flatMap Block.statements).Perm
      (Command.nestingAll program).labels := by
  have placed := (placed_ofCommands program).map Prod.fst
  rw [Command.map_placedAll] at placed
  have sameStatements : ∀ block : Block, block.placed.map Prod.fst = block.statements := by
    intro block
    simp [Block.placed, Function.comp_def]
  simpa [List.map_flatMap, sameStatements] using placed

/-- What stands in a block is placed by the program. -/
theorem mem_labels_of_mem_statements {program : List Command} {statement : Node} {id : BlockId}
    (isPlaced : statement ∈ (ofCommands program).statements id) :
    statement ∈ (Command.nestingAll program).labels := by
  rcases exists_block_of_mem isPlaced with ⟨small, statementsEq⟩
  rw [statementsEq] at isPlaced
  apply (statements_ofCommands program).mem_iff.1
  exact List.mem_flatMap.2 ⟨_, List.getElem_mem small, isPlaced⟩

end Graph

end FlowAnalysis
