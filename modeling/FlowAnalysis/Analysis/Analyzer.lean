import FlowAnalysis.Analysis.Calls
import FlowAnalysis.Analysis.Declarations
import FlowAnalysis.Analysis.Result
import FlowAnalysis.ControlFlow.Construction
import FlowAnalysis.ControlFlow.Dependence

/-!
# The dataflow analysis

An analyzer keeps what it has learned: the specifications that names stand for, and the definitions
and uses of every statement it has seen, by location. The analysis of a graph runs the statements of
its blocks over states of reaching references until the states no longer change.

The definitions and uses of a function are those of its body, which has a graph of its own; those of
a class are those of its members. Both go into ever smaller scopes, so the recursion is on the depth
of scopes.
-/

namespace FlowAnalysis

/-- What an analyzer knows. -/
structure Analyzer where
  symbols : SymbolTable
  /-- The definitions and uses of the statements seen so far, by location key. -/
  cache : Dictionary DefUse := []
  /-- Whether the bodies of local functions say what the functions mutate. -/
  inferLocalFunctions : Bool := true
  /-- How many blocks are processed before an analysis is cut short. -/
  iterationLimit : Nat := 10000

/-- A step of an analysis: it may fail, and it may teach the analyzer something. -/
abbrev Analysis := StateT Analyzer (Except Failure)

namespace Analyzer

/-- The analyzer that starts from some specifications. -/
def ofSpecs (specs : Specs) : Analyzer :=
  { symbols := .ofSpecs specs }

/-- The analyzer that some settings describe. -/
def ofSettings (settings : Settings) (files : Files) : Except Failure Analyzer := do
  let specs ← settings.loadSpecs files
  return { ofSpecs specs with inferLocalFunctions := settings.inferLocalFunctions }

/-- What is known about a statement. -/
def cached? (analyzer : Analyzer) (statement : Node) : Option DefUse :=
  analyzer.cache.get? statement.key

/-- Changes what names stand for. -/
def withSymbols (analyzer : Analyzer) (change : SymbolTable → SymbolTable) : Analyzer :=
  { analyzer with symbols := change analyzer.symbols }

end Analyzer

namespace Analysis

/-- Changes what names stand for. -/
def learn (change : SymbolTable → SymbolTable) : Analysis Unit :=
  modify fun analyzer => analyzer.withSymbols change

/-- Finds out the definitions and uses of a statement, given the references that reach it. -/
abbrev Transfer := Node → RefSet → Analysis DefUse

/-- The state of an iteration over the blocks of a graph. -/
structure Progress where
  /-- The blocks to be processed, the next one first. -/
  pending : List BlockId
  /-- The references at the end of each block, by its number. -/
  states : List DefUse
  dataflows : DataflowSet := .empty
  /-- The references that something has reached. -/
  defined : RefSet := .empty
  /-- The references that nothing has reached so far. -/
  undefinedRefs : RefSet := .empty
  iterations : Nat := 0

namespace Progress

/-- The references at the end of a block. -/
def state (progress : Progress) (id : BlockId) : DefUse :=
  (progress.states[id]?).getD .empty

/-- Records what a statement contributes, given the references that reach it. -/
def record (progress : Progress) (statement running : DefUse) : Progress :=
  let defined := progress.defined.union (statement.reachedFrom running)
  { progress with
    dataflows := progress.dataflows.union (statement.flowsFrom running)
    defined
    undefinedRefs := (progress.undefinedRefs.union statement.allUses).minus defined }

/-- Puts blocks on top of the pending ones, the last one uppermost, unless they are pending. -/
def schedule (pending : List BlockId) (ids : List BlockId) : List BlockId :=
  ids.foldl (fun pending id => if id ∈ pending then pending else id :: pending) pending

/-- The references that arrive at a block: those of its stored state and those of the states of its
predecessors. -/
def arriving (progress : Progress) (graph : Graph) (id : BlockId) : DefUse :=
  (graph.predecessors id).foldl (fun state source => state.union (progress.state source))
    (progress.state id)

/-- Stores the references at the end of a block. Unless they are those stored before, the successors
of the block are due again. -/
def store (progress : Progress) (graph : Graph) (id : BlockId) (running : DefUse) : Progress :=
  if running.sameRefs (progress.state id) then progress
  else
    { progress with
      states := progress.states.set id running
      pending := schedule progress.pending (graph.successors id) }

/-- The start of an iteration: every reachable block is pending, and some references reach the
entry. -/
def start (graph : Graph) (initial : RefSet) : Progress :=
  let seed := DefUse.empty.update { definitions := initial }
  { pending := graph.reachable
    states := (List.replicate graph.size DefUse.empty).set graph.entry seed }

end Progress

/-- Runs the statements of a block over a running state. -/
def runStatements (transfer : Transfer) :
    List Node → DefUse → Progress → Analysis (DefUse × Progress)
  | [], running, progress => return (running, progress)
  | statement :: rest, running, progress => do
      let defUse ← transfer statement running.defs
      runStatements transfer rest (running.update defUse) (progress.record defUse running)

/-- Processes a block: its statements run over its stored state together with those of its
predecessors. -/
def processBlock (transfer : Transfer) (graph : Graph) (id : BlockId) (progress : Progress) :
    Analysis Progress := do
  let (running, recorded) ←
    runStatements transfer (graph.statements id) (progress.arriving graph id) progress
  return recorded.store graph id running

/-- Processes pending blocks until there are none, at most as many as the first argument says. -/
def iterate (transfer : Transfer) (graph : Graph) : Nat → Progress → Analysis Progress
  | 0, progress =>
      return { progress with
        iterations := progress.iterations + if progress.pending.isEmpty then 0 else 1 }
  | limit + 1, progress =>
      match progress.pending with
      | [] => return progress
      | id :: pending => do
          let next ←
            processBlock transfer graph id
              { progress with pending, iterations := progress.iterations + 1 }
          iterate transfer graph limit next

/-- What an iteration has found, and edges from statements to others that they control. -/
def Progress.result (progress : Progress) (controls : List (Node × Node)) : AnalysisResult :=
  { dataflows :=
      progress.dataflows.extend (controls.map fun (control, dependent) => .control control dependent)
    undefinedRefs := progress.undefinedRefs
    iterations := progress.iterations
    converged := progress.pending.isEmpty }

/-- Analyzes a graph, with some references defined on entry. -/
def ofGraph (transfer : Transfer) (graph : Graph) (initial : RefSet) : Analysis AnalysisResult := do
  let limit := (← get).iterationLimit
  let progress ← iterate transfer graph limit (Progress.start graph initial)
  return progress.result (← (graph.controlPairs : Except Failure (List (Node × Node))))

end Analysis

/-- What the analysis of a function found. -/
structure FunctionAnalysis where
  spec : FunctionSpec
  /-- What the body reads from outside. -/
  freeUses : RefSet
  result : AnalysisResult

namespace AnalysisResult

/-- The name that a statement makes an alias of another, if it assigns that name alone to a bare
name. -/
def aliasTarget? (statement : Node) (source : String) : Option String :=
  match statement.shape with
  | .assign none [target] [value] => if value.nameId? = some source then target.nameId? else none
  | _ => none

/-- The data edges that carry a name from a statement. -/
def carrying (result : AnalysisResult) (carrier : String × String) : List (Reference × Dataflow) :=
  result.dataflows.toList.filterMap fun flow =>
    match flow.sourceRef, flow.targetRef with
    | some source, some target =>
        if flow.source.key = carrier.1 ∧ source.name = carrier.2 then some (target, flow) else none
    | _, _ => none

/-- The statements and names that carry a value on, from a statement and a name that carry it. -/
def carriers (result : AnalysisResult) (carrier : String × String) : List (String × String) :=
  (result.carrying carrier).filterMap fun (_, flow) =>
    (aliasTarget? flow.target carrier.2).map fun name => (flow.target.key, name)

/-- Whether the value of a parameter is updated, under its own name or under an alias of it. -/
def mutatesParameter (result : AnalysisResult) (param : Node) : Bool :=
  match param.shape with
  | .parameter name .. =>
      let reached :=
        Search.reached result.carriers (result.dataflows.size + 1) [(param.key, name)]
      reached.any fun carrier =>
        (result.carrying carrier).any fun (target, _) => target.level == .update
  | _ => false

/-- The positions of the parameters that are mutated, counted from a given number. -/
def mutatedPositions (result : AnalysisResult) : Nat → List Node → List Nat
  | _, [] => []
  | position, param :: rest =>
      (if result.mutatesParameter param then [position] else []) ++
        result.mutatedPositions (position + 1) rest

end AnalysisResult

namespace Analysis

/-- The definition that a parameter makes on entry. -/
def parameterDefinition? (param : Node) : Option Reference :=
  match param.shape with
  | .parameter name .. => some (.atNode .definition name param param)
  | _ => none

/-- The default value of a parameter. -/
def parameterDefault? (param : Node) : Option Node :=
  match param.shape with
  | .parameter _ _ default _ _ => default
  | _ => none

/-- Analyzes the body of a function. A method counts its receiver as position zero; the parameters
of other functions count from one. While the body of a function is analyzed, calls of the function
itself are taken to mutate nothing. -/
def functionWith (transfer : Transfer) (function : Node) (isMethod : Bool) :
    Analysis FunctionAnalysis := do
  match function.shape with
  | .definition name params _ _ =>
      if !isMethod && (← get).inferLocalFunctions then
        learn fun symbols => symbols.registerFunction { name }
      let graph ← (Graph.ofRoot function : Except Failure Graph)
      let result ← ofGraph transfer graph (.ofList (params.filterMap parameterDefinition?))
      let positions := result.mutatedPositions (if isMethod then 0 else 1) params
      return {
        spec := { name, updates := positions.map .position }
        freeUses := result.freeUses
        result }
  | _ => throw (.unsupportedRoot function.typeName)

/-- The uses of a function definition: what its body reads from outside, its decorators, and the
defaults of its parameters. -/
def definitionUses (definition : Node) (freeUses : RefSet) : List Reference :=
  let own :=
    match definition.shape with
    | .definition _ params _ decorators =>
        decorators ++ params.filterMap parameterDefault?
    | _ => []
  (freeUses.toList.map fun reference => reference.ownedBy definition) ++
    own.flatMap fun expression => nameUses expression definition

/-- The definition that a statement as a whole makes of a name. -/
def statementDefinition (kind : SymbolKind) (name : String) (statement : Node) : Reference :=
  { Reference.atNode .definition name statement statement with kind }

/-- The references that the members of a class make, attributed to the class, and the methods of
the class. -/
def memberReferences (transfer : Transfer) (statement : Node) :
    List Node → Analysis (List Reference × List FunctionSpec)
  | [] => return ([], [])
  | member :: rest => do
      let (uses, methods) ←
        match member.shape with
        | .definition .. => do
            let analysis ← functionWith transfer member true
            pure (definitionUses member analysis.freeUses, [analysis.spec])
        | _ => do
            let defUse ← transfer member .empty
            pure (defUse.uses.toList, [])
      let (otherUses, otherMethods) ← memberReferences transfer statement rest
      return ((uses.map fun use => use.ownedBy statement) ++ otherUses, methods ++ otherMethods)

/-- The types that the sources of an assignment are known to have, by position. -/
def inferredTypes (symbols : SymbolTable) (sources : List Node) : List (Option TypeSpec) :=
  sources.map fun source =>
    match source.shape with
    | .call func _ => (symbols.lookupCallee? func).bind ResolvedFunction.returnsType
    | _ => none

/-- The references that the targets of an assignment make, each given the type of the source at the
same position. -/
def assignedReferences (statement : Node) (level : Level) :
    List Node → List (Option TypeSpec) → List Reference
  | [], _ => []
  | target :: targets, types =>
      targetReferences statement level (types.head?.join) target ++
        assignedReferences statement level targets types.tail

/-- The references of an assignment. An augmented one updates its targets and reads them too. -/
def assignmentReferences (symbols : SymbolTable) (statement : Node) (op : Option String)
    (targets sources : List Node) : List Reference :=
  let level := if op.isSome then Level.update else .definition
  let read := if op.isSome then sources ++ targets else sources
  assignedReferences statement level targets (inferredTypes symbols sources) ++
    read.flatMap fun expression => nameUses expression statement

/-- The references that a statement makes apart from its calls and declarations. -/
def ownReferences (transfer : Transfer) (statement : Node) : Analysis (List Reference) := do
  match statement.shape with
  | .importModules names =>
      learn fun symbols =>
        names.foldl
          (fun symbols name => (symbols.importModule? name.path name.boundAs).getD symbols) symbols
      return names.map fun name => statementDefinition .imported name.boundName statement
  | .importFrom base imports =>
      learn fun symbols => (symbols.importFrom? base imports).getD symbols
      return (imports.filter fun name => name.path != "*").map fun name =>
        statementDefinition .imported name.boundName statement
  | .definition name .. =>
      let analysis ← functionWith transfer statement false
      if (← get).inferLocalFunctions then
        learn fun symbols => symbols.registerFunction analysis.spec
      return statementDefinition .function name statement ::
        definitionUses statement analysis.freeUses
  | .classDefinition name bases body decorators =>
      let (uses, methods) ← memberReferences transfer statement body
      if (← get).inferLocalFunctions then
        learn fun symbols => symbols.bindType name { methods }
      return uses ++
        ((bases ++ decorators).flatMap fun expression => nameUses expression statement) ++
        [statementDefinition .classType name statement]
  | .assign op targets sources =>
      return assignmentReferences (← get).symbols statement op targets sources
  | .delete targets => return targetListReferences statement .update targets
  | .elseClause _ | .pass | .breakLoop | .continueLoop => return []
  | _ => return nameUses statement statement

/-- Whether a statement defines a function or a class. -/
def opensNamedScope (statement : Node) : Bool :=
  match statement.shape with
  | .definition .. | .classDefinition .. => true
  | _ => false

/-- The definitions and uses of a statement that is not known yet. -/
def defUseWith (transfer : Transfer) : Transfer := fun statement running => do
  let references ← ownReferences transfer statement
  let symbols := (← get).symbols
  let updates :=
    if opensNamedScope statement then [] else callUpdates symbols running statement
  return .ofReferences (references ++ updates ++ declaredDefinitions statement)

/-- Looks up what is known about a statement, or finds it out and keeps it. -/
def remembered (transfer : Transfer) : Transfer := fun statement running => do
  match (← get).cached? statement with
  | some defUse => return defUse
  | none =>
      let defUse ← transfer statement running
      modify fun analyzer =>
        { analyzer with cache := analyzer.cache.insert statement.key defUse }
      return defUse

end Analysis

/-- How deep functions and classes nest in a tree. -/
def Node.scopeDepth (node : Node) : Nat :=
  let inner :=
    (node.children.attach.map fun ⟨child, _⟩ => scopeDepth child).foldl max 0
  if Analysis.opensNamedScope node then inner + 1 else inner
termination_by sizeOf node
decreasing_by exact Node.sizeOf_lt_of_mem_children (by assumption)

namespace Analysis

/-- The definitions and uses of a statement, given the references that reach it. -/
def defUse (statement : Node) (running : RefSet) : Analysis DefUse :=
  remembered
    (defUseWith fun inner reaching =>
      if inner.scopeDepth < statement.scopeDepth then defUse inner reaching else pure .empty)
    statement running
termination_by statement.scopeDepth

/-- Analyzes a graph, with some references defined on entry. -/
def graph (graph : Graph) (initial : RefSet) : Analysis AnalysisResult :=
  ofGraph defUse graph initial

/-- Analyzes a module, or the body of a function with nothing defined on entry. -/
def module (root : Node) : Analysis AnalysisResult := do
  graph (← (Graph.ofRoot root : Except Failure Graph)) .empty

/-- Analyzes a function. -/
def function (definition : Node) (isMethod : Bool) : Analysis FunctionAnalysis :=
  functionWith defUse definition isMethod

/-- Finds out what a function mutates. -/
def functionSpec (definition : Node) : Analysis FunctionSpec := do
  return (← function definition false).spec

end Analysis

end FlowAnalysis
