import FlowAnalysis.Tree.Node

/-!
# Structured commands

What matters for control about a list of statements: which statements run straight on, which jump,
and how conditionals, loops, `with` and `try` statements combine others. A command holds the nodes
that are placed in blocks. Some of them are not statements of the program: a loop over an iterable,
a resource with a target and a handler with a name each bind by an assignment of their own.
-/

namespace FlowAnalysis

/-- Where a jump goes. -/
inductive Jump where
  /-- To the handlers of the innermost `try`, or out of the program. -/
  | raising
  /-- Behind the innermost loop. -/
  | breaking
  /-- To the head of the innermost loop. -/
  | continuing
deriving DecidableEq, Repr

/-- The two sorts of loops. -/
inductive LoopKind where
  | whileLoop
  | forLoop
deriving DecidableEq, Repr

mutual

/-- A statement with its control structure. -/
inductive Command where
  /-- A statement after which control runs on. -/
  | place (statement : Node)
  /-- A statement after which control is elsewhere. -/
  | jump (target : Jump) (statement : Node)
  /-- A condition, what runs if it holds, and what comes otherwise. -/
  | branch (cond : Node) (body : List Command) (rest : Alternatives)
  /-- A head that is visited before each round, the variables it sets, the body of a round, and what
  runs when the loop is left through its head. -/
  | loop (kind : LoopKind) (head : Node) (loopVariables : List Node) (body orelse : List Command)
  /-- Bindings and what runs under them. -/
  | bracket (bindings : List Node) (body : List Command)
  /-- A body, the handlers of what it raises, what runs after the body, and what runs last. -/
  | guarded (body : List Command) (handlers : List (List Command)) (orelse finalbody : List Command)

/-- What comes after a condition that does not hold. -/
inductive Alternatives where
  | none
  /-- A further condition. -/
  | further (cond : Node) (body : List Command) (rest : Alternatives)
  /-- A last clause that is always taken. -/
  | otherwise (header : Node) (body : List Command)

end

/-- The assignment that stands for an implicit binding. -/
def Node.binding (targets sources : List Node) (location : Location) : Node :=
  { shape := .assign none targets sources, location }

/-- The node that a `with` item places: its binding, or the resource alone. -/
def WithItem.placed (item : WithItem Node) : Node :=
  match item.target with
  | some target => .binding [target] [item.context] item.context.location
  | none => item.context

/-- A last clause, unless it is empty. -/
def Alternatives.ofClause (header : Node) (body : List Command) : Alternatives :=
  if body.isEmpty then .none else .otherwise header body

namespace Command

mutual

/-- The command of a statement. -/
def ofNode : Node → Command
  | ⟨.conditional cond body elifs orelse, _⟩ =>
      .branch cond (ofNodes body) (ofClauses elifs (ofOrelse orelse))
  | ⟨.whileLoop cond body orelse, _⟩ =>
      .loop .whileLoop cond [cond] (ofNodes body) (ofNodes orelse)
  | ⟨.forLoop targets iter body orelse declLocation, _⟩ =>
      .loop .forLoop (.binding targets iter declLocation) targets (ofNodes body) (ofNodes orelse)
  | ⟨.withBlock items body, _⟩ => .bracket (items.map WithItem.placed) (ofNodes body)
  | ⟨.tryBlock body handlers orelse finalbody, _⟩ =>
      .guarded (ofNodes body) (ofHandlers handlers) (ofNodes orelse) (ofNodes finalbody)
  | ⟨.raiseError error, location⟩ => .jump .raising ⟨.raiseError error, location⟩
  | ⟨.breakLoop, location⟩ => .jump .breaking ⟨.breakLoop, location⟩
  | ⟨.continueLoop, location⟩ => .jump .continuing ⟨.continueLoop, location⟩
  | statement => .place statement

/-- The commands of a list of statements. -/
def ofNodes : List Node → List Command
  | [] => []
  | statement :: rest => ofNode statement :: ofNodes rest

/-- The alternatives that further conditions offer before some last ones. -/
def ofClauses : List (ElifClause Node) → Alternatives → Alternatives
  | [], last => last
  | ⟨cond, body⟩ :: rest, last => .further cond (ofNodes body) (ofClauses rest last)

/-- The alternative that an `else` node offers. Any node with a body can stand in its place. -/
def ofOrelse : Option Node → Alternatives
  | some ⟨.elseClause body, location⟩ =>
      .ofClause ⟨.elseClause body, location⟩ (ofNodes body)
  | some ⟨.module code, location⟩ => .ofClause ⟨.module code, location⟩ (ofNodes code)
  | some ⟨.definition name params body decorators, location⟩ =>
      .ofClause ⟨.definition name params body decorators, location⟩ (ofNodes body)
  | some ⟨.classDefinition name bases body decorators, location⟩ =>
      .ofClause ⟨.classDefinition name bases body decorators, location⟩ (ofNodes body)
  | _ => .none

/-- The commands of each handler. A handler with a type and a name first binds the name to the type;
one with a type alone first evaluates the type. -/
def ofHandlers : List (ExceptHandler Node) → List (List Command)
  | [] => []
  | ⟨some cond, some name, body, location⟩ :: rest =>
      (.place (.binding [⟨.name name, location⟩] [cond] location) :: ofNodes body) ::
        ofHandlers rest
  | ⟨some cond, none, body, _⟩ :: rest => (ofNode cond :: ofNodes body) :: ofHandlers rest
  | ⟨none, _, body, _⟩ :: rest => ofNodes body :: ofHandlers rest

end

end Command

end FlowAnalysis
