import FlowAnalysis.Search
import FlowAnalysis.Tree.Node

/-!
# Control-flow graphs

A graph has blocks of statements, numbered from zero, and edges between them in the order in which
they were drawn, no edge twice. Successors and predecessors are both read off the edges, so they
always agree.
-/

namespace FlowAnalysis

/-- Blocks are identified by their number. -/
abbrev BlockId := Nat

/-- Which part of a program a block was made for. -/
inductive BlockRole where
  | exceptionalExit | entry | unreachable
  | ifCond | ifBody | elifCond | elifBody | elseCond | elseBody | conditionalJoin
  | whileHead | whileBody | whileJoin | forHead | forBody | forJoin | loopElseBody
  | withBindings | withBody
  | tryJoin | handlers | handlerBody | tryBody | tryElseBody | finallyBody
deriving DecidableEq, Repr

namespace BlockRole

/-- The words that report a role. -/
def label : BlockRole → String
  | exceptionalExit => "exceptional exit"
  | entry => "entry"
  | unreachable => "unreachable"
  | ifCond => "if cond"
  | ifBody => "if body"
  | elifCond => "elif cond"
  | elifBody => "elif body"
  | elseCond => "else cond"
  | elseBody => "else body"
  | conditionalJoin => "conditional join"
  | whileHead => "while loop head"
  | whileBody => "while body"
  | whileJoin => "while loop join"
  | forHead => "for loop head"
  | forBody => "for body"
  | forJoin => "for loop join"
  | loopElseBody => "loop else body"
  | withBindings => "with"
  | withBody => "with body"
  | tryJoin => "try join"
  | handlers => "handlers"
  | handlerBody => "handler body"
  | tryBody => "try body"
  | tryElseBody => "try else body"
  | finallyBody => "finally body"

end BlockRole

/-- A sequence of statements that control enters at the front and leaves at the back. -/
structure Block where
  role : BlockRole
  statements : List Node
  /-- The targets or conditions of the loops around the block, outermost first. -/
  loopVariables : List Node

/-- Blocks and the edges between them. -/
structure Graph where
  blocks : List Block
  edges : List (BlockId × BlockId)
  entry : BlockId
  exceptionalExit : BlockId

namespace Graph

/-- The block with a given number. -/
def block? (graph : Graph) (id : BlockId) : Option Block :=
  graph.blocks[id]?

/-- The statements of a block. -/
def statements (graph : Graph) (id : BlockId) : List Node :=
  ((graph.block? id).map Block.statements).getD []

/-- The blocks to which a block has an edge. -/
def successors (graph : Graph) (id : BlockId) : List BlockId :=
  (graph.edges.filter fun edge => edge.1 == id).map Prod.snd

/-- The blocks from which a block has an edge. -/
def predecessors (graph : Graph) (id : BlockId) : List BlockId :=
  (graph.edges.filter fun edge => edge.2 == id).map Prod.fst

/-- The number of blocks. -/
def size (graph : Graph) : Nat :=
  graph.blocks.length

/-- The blocks that some path from the entry reaches, in breadth-first order. -/
def reachable (graph : Graph) : List BlockId :=
  Search.reached graph.successors graph.size [graph.entry]

/-- The statements of the reachable blocks, block after block. -/
def reachableStatements (graph : Graph) : List Node :=
  graph.reachable.flatMap graph.statements

/-- The reachable blocks at which control ends. -/
def exits (graph : Graph) : List BlockId :=
  graph.reachable.filter fun id => (graph.successors id).isEmpty

/-- The line that reports a block: its number and role, the lines of its statements, its
successors. -/
def displayBlock (graph : Graph) (id : BlockId) : String :=
  match graph.block? id with
  | none => ""
  | some block =>
      let lines := block.statements.map fun statement => toString statement.location.firstLine
      "BLOCK " ++ toString id ++ " (" ++ block.role.label ++ ") [" ++ ", ".intercalate lines ++
        "] -> [" ++ ", ".intercalate ((graph.successors id).map toString) ++ "]\n"

/-- The report of the reachable blocks. -/
def display (graph : Graph) : String :=
  "".intercalate (graph.reachable.map graph.displayBlock)

end Graph

end FlowAnalysis
