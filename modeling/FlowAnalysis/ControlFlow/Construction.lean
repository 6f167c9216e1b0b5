import FlowAnalysis.ControlFlow.Command
import FlowAnalysis.ControlFlow.Graph
import FlowAnalysis.Settings
import FlowAnalysis.Tree.Schema

/-!
# Construction of control-flow graphs

Commands are laid out one after the other. Each is given the block in which control arrives and says
in which block it goes on. A jump goes on in a new block without predecessors, so what follows it is
kept but not reached. The first block is the exceptional exit, the second the entry.
-/

namespace FlowAnalysis

/-- A graph under construction. -/
structure Layout where
  blocks : List Block := []
  edges : List (BlockId × BlockId) := []

/-- The head and the exit of a loop. -/
structure LoopTargets where
  head : BlockId
  exit : BlockId

/-- Where jumps go, and which loops there are around. -/
structure Surroundings where
  innermostLoop : Option LoopTargets
  handler : BlockId
  loopVariables : List Node

namespace Surroundings

/-- Inside the body of a loop. -/
def insideLoop (around : Surroundings) (targets : LoopTargets) (bound : List Node) :
    Surroundings :=
  { around with
    innermostLoop := some targets
    loopVariables := around.loopVariables ++ bound }

/-- Inside a body whose handlers are dispatched from a block. -/
def guardedBy (around : Surroundings) (handler : BlockId) : Surroundings :=
  { around with handler }

/-- The block to which a jump goes; one out of a loop goes nowhere where there is no loop. -/
def target? (around : Surroundings) : Jump → Option BlockId
  | .raising => some around.handler
  | .breaking => around.innermostLoop.map LoopTargets.exit
  | .continuing => around.innermostLoop.map LoopTargets.head

end Surroundings

/-- The role of the head block of a loop. -/
def LoopKind.headRole : LoopKind → BlockRole
  | whileLoop => .whileHead
  | forLoop => .forHead

/-- The role of the first body block of a loop. -/
def LoopKind.bodyRole : LoopKind → BlockRole
  | whileLoop => .whileBody
  | forLoop => .forBody

/-- The role of the block after a loop. -/
def LoopKind.joinRole : LoopKind → BlockRole
  | whileLoop => .whileJoin
  | forLoop => .forJoin

namespace Layout

/-- Adds a block and gives its number. -/
def newBlock (around : Surroundings) (role : BlockRole) (statements : List Node) :
    StateM Layout BlockId :=
  modifyGet fun layout =>
    (layout.blocks.length,
      { layout with
        blocks := layout.blocks ++ [{ role, statements, loopVariables := around.loopVariables }] })

/-- Draws an edge unless it is there already. -/
def link (source target : BlockId) : StateM Layout Unit :=
  modify fun layout =>
    if (source, target) ∈ layout.edges then layout
    else { layout with edges := layout.edges ++ [(source, target)] }

/-- Draws an edge from each of some blocks. -/
def linkAll (sources : List BlockId) (target : BlockId) : StateM Layout Unit :=
  sources.forM fun source => link source target

/-- Draws an edge to a block that may be missing. -/
def linkTo? (source : BlockId) : Option BlockId → StateM Layout Unit
  | some target => link source target
  | none => return

/-- Appends a statement to a block. -/
def append (id : BlockId) (statement : Node) : StateM Layout Unit :=
  modify fun layout =>
    { layout with
      blocks := layout.blocks.modify id fun block =>
        { block with statements := block.statements ++ [statement] } }

/-- Lays out a body in a new block that is entered from some others; gives the block in which the
body ends. -/
def layBody (around : Surroundings) (role : BlockRole) (sources : List BlockId)
    (lay : BlockId → StateM Layout BlockId) : StateM Layout BlockId := do
  let entry ← newBlock around role []
  let exit ← lay entry
  linkAll sources entry
  return exit

/-- Lays out a body on the way from some blocks to another one; if the body is empty, they are
linked at once. -/
def layBetween (around : Surroundings) (role : BlockRole) (sources : List BlockId)
    (body : List Command) (lay : BlockId → StateM Layout BlockId) (target : BlockId) :
    StateM Layout Unit :=
  if body.isEmpty then linkAll sources target
  else do
    let exit ← layBody around role sources lay
    link exit target

/-- Lays out a body unless it is empty; gives the block in which it ends, or the one from which it
would be entered. -/
def layOptional (around : Surroundings) (role : BlockRole) (source : BlockId)
    (body : List Command) (lay : BlockId → StateM Layout BlockId) : StateM Layout BlockId :=
  if body.isEmpty then return source else layBody around role [source] lay

/-- Adds a block that dispatches handlers, if there are any. -/
def newDispatch? (around : Surroundings) (handlers : List (List Command)) :
    StateM Layout (Option BlockId) :=
  if handlers.isEmpty then return none else some <$> newBlock around .handlers []

mutual

/-- Lays out a command behind a block; gives the block that follows it. -/
def layCommand (around : Surroundings) : Command → BlockId → StateM Layout BlockId
  | .place statement, last => do
      append last statement
      return last
  | .jump target statement, last => do
      append last statement
      linkTo? last (around.target? target)
      newBlock around .unreachable []
  | .branch cond body rest, last => do
      let condBlock ← newBlock around .ifCond [cond]
      link last condBlock
      let bodyExit ← layBody around .ifBody [condBlock] (layCommands around body)
      let join ← newBlock around .conditionalJoin []
      link bodyExit join
      layAlternatives around rest condBlock join
      return join
  | .loop kind head bound body orelse, last => do
      let headBlock ← newBlock around kind.headRole [head]
      link last headBlock
      let join ← newBlock around kind.joinRole []
      let inside := around.insideLoop { head := headBlock, exit := join } bound
      let bodyExit ← layBody inside kind.bodyRole [headBlock] (layCommands inside body)
      link bodyExit headBlock
      layBetween around .loopElseBody [headBlock] orelse (layCommands around orelse) join
      return join
  | .bracket bindings body, last => do
      let bindingBlock ← newBlock around .withBindings bindings
      link last bindingBlock
      layBody around .withBody [bindingBlock] (layCommands around body)
  | .guarded body handlers orelse finalbody, last => do
      let join ← newBlock around .tryJoin []
      let dispatch? ← newDispatch? around handlers
      let handlerExits ← layHandlers around dispatch?.toList handlers
      let inside := around.guardedBy (dispatch?.getD around.handler)
      let bodyExit ← layBody inside .tryBody [last] (layCommands inside body)
      linkTo? bodyExit dispatch?
      let normalExit ←
        layOptional around .tryElseBody bodyExit orelse (layCommands around orelse)
      let exits :=
        if finalbody.isEmpty then handlerExits ++ [normalExit] else normalExit :: handlerExits
      layBetween around .finallyBody exits finalbody (layCommands around finalbody) join
      return join

/-- Lays out commands one after the other. -/
def layCommands (around : Surroundings) : List Command → BlockId → StateM Layout BlockId
  | [], last => return last
  | command :: rest, last => do
      let next ← layCommand around command last
      layCommands around rest next

/-- Lays out what comes after a condition that does not hold; every clause ends at the join. -/
def layAlternatives (around : Surroundings) :
    Alternatives → BlockId → BlockId → StateM Layout Unit
  | .none, condBlock, join => link condBlock join
  | .further cond body rest, condBlock, join => do
      let furtherBlock ← newBlock around .elifCond [cond]
      link condBlock furtherBlock
      let bodyExit ← layBody around .elifBody [furtherBlock] (layCommands around body)
      link bodyExit join
      layAlternatives around rest furtherBlock join
  | .otherwise header body, condBlock, join => do
      let headerBlock ← newBlock around .elseCond [header]
      link condBlock headerBlock
      let bodyExit ← layBody around .elseBody [headerBlock] (layCommands around body)
      link bodyExit join

/-- Lays out handlers, which are entered from the blocks that dispatch them; gives the blocks in
which they end. -/
def layHandlers (around : Surroundings) (dispatches : List BlockId) :
    List (List Command) → StateM Layout (List BlockId)
  | [] => return []
  | handler :: rest => do
      let handlerExit ← layBody around .handlerBody dispatches (layCommands around handler)
      return handlerExit :: (← layHandlers around dispatches rest)

end

/-- Lays out a whole program; gives its exceptional exit and its entry. -/
def layProgram (program : List Command) : StateM Layout (BlockId × BlockId) := do
  let outside : Surroundings := { innermostLoop := none, handler := 0, loopVariables := [] }
  let exceptionalExit ← newBlock outside .exceptionalExit []
  let around := outside.guardedBy exceptionalExit
  let entry ← newBlock around .entry []
  let _ ← layCommands around program entry
  return (exceptionalExit, entry)

end Layout

namespace Graph

/-- The graph of a list of commands. -/
def ofCommands (program : List Command) : Graph :=
  let ((exceptionalExit, entry), layout) := (Layout.layProgram program).run {}
  { blocks := layout.blocks, edges := layout.edges, entry, exceptionalExit }

/-- The graph of a list of statements. -/
def ofStatements (statements : List Node) : Graph :=
  ofCommands (Command.ofNodes statements)

/-- The graph of a module or of the body of a function. -/
def ofRoot (root : Node) : Except Failure Graph :=
  match root.shape with
  | .module code => .ok (ofStatements code)
  | .definition _ _ body _ => .ok (ofStatements body)
  | _ => .error (.unsupportedRoot root.typeName)

end Graph

end FlowAnalysis
