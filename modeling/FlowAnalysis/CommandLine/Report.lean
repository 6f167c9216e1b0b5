import FlowAnalysis.Analysis.Analyzer
import FlowAnalysis.Json.Write
import FlowAnalysis.Spec.Json

/-!
# Reports

The four reports on a program: the blocks of its control-flow graph, the definitions and uses of its
statements, the edges between them, and the specifications of its functions. A report is a list of
lines; locations are shown without their path, except in JSON.
-/

namespace FlowAnalysis

namespace Report

/-- A statement in a report. -/
def statementLabel (statement : Node) : String :=
  statement.location.display ++ " " ++ statement.typeName

/-- The lines that report a block. -/
def blockLines (graph : Graph) (id : BlockId) : List String :=
  match graph.block? id with
  | none => []
  | some block =>
      let successors := graph.successors id
      ("BLOCK " ++ toString id ++ " (" ++ block.role.label ++ ")") ::
        block.statements.map (fun statement => "    " ++ statementLabel statement) ++
        if successors.isEmpty then []
        else ["    -> " ++ ", ".intercalate (successors.map toString)]

/-- The blocks that control reaches. -/
def graph (program : Node) : Except Failure (List String) := do
  let graph ← Graph.ofRoot program
  return graph.reachable.flatMap (blockLines graph)

/-- A text with blanks behind it up to a width. -/
def padded (width : Nat) (text : String) : String :=
  text ++ String.ofList (List.replicate (width - text.length) ' ')

/-- The lines that report the definitions and uses of a statement. -/
def defUseLines (statement : Node) (defUse : DefUse) : List String :=
  statementLabel statement ::
    (Level.all.filter fun level => !(defUse.level level).isEmpty).map fun level =>
      let names := (defUse.level level).toList.map Reference.name
      "    " ++ padded 10 level.label ++ " " ++ ", ".intercalate names

/-- The definitions and uses of the statements that control reaches, in the order of the text. -/
def defUse (program : Node) : Analysis (List String) := do
  let _ ← Analysis.module program
  let graph ← (Graph.ofRoot program : Except Failure Graph)
  let statements := graph.reachableStatements.mergeSort fun left right =>
    !right.location.startsBefore left.location
  let analyzer ← get
  return statements.flatMap fun statement =>
    match analyzer.cached? statement with
    | some defUse => defUseLines statement defUse
    | none => []

/-- The line that reports an edge. -/
def flowLine (flow : Dataflow) : String :=
  let label :=
    match flow.targetRef with
    | some reference => reference.level.label ++ " " ++ reference.name
    | none => "control"
  flow.source.location.display ++ " -> " ++ flow.target.location.display ++ " (" ++ label ++ ")"

/-- The line that reports a name that nothing in the program binds. -/
def freeLine (reference : Reference) : String :=
  "free " ++ reference.name ++ " @ " ++ reference.location.display

/-- The record that reports an edge. -/
def flowJson (flow : Dataflow) : Json :=
  let member (key : String) (reference : Option Reference) : List (String × Json) :=
    reference.toList.map fun reference => (key, reference.toJson)
  .object <|
    [("from", flow.source.location.toJson), ("to", flow.target.location.toJson)] ++
      member "from_ref" flow.sourceRef ++ member "to_ref" flow.targetRef

/-- The record that reports an analysis. -/
def resultJson (result : AnalysisResult) : Json :=
  .object
    [("dataflows", .array (result.dataflows.toList.map flowJson)),
      ("free_refs", .array (result.undefinedRefs.toList.map Reference.toJson)),
      ("iterations", .natural result.iterations)]

/-- The edges between statements, and the names that nothing binds. -/
def dataflow (asJson : Bool) (program : Node) : Analysis (List String) := do
  let result ← Analysis.module program
  if asJson then return [(resultJson result).pretty]
  else
    return result.dataflows.toList.map flowLine ++ result.undefinedRefs.toList.map freeLine

/-- The specification of a function of the program: what the analysis of the program registered, or
else what its body shows. -/
def functionSpec (name : String) (definition : Node) : Analysis FunctionSpec := do
  let analyzer ← get
  match analyzer.symbols.lookupFunction? name with
  | some function =>
      if analyzer.inferLocalFunctions then return function.spec
      else Analysis.functionSpec definition
  | none => Analysis.functionSpec definition

/-- The specifications of the functions of the program, as a document that holds one module. -/
def specs (moduleName : String) (program : Node) : Analysis (List String) := do
  let _ ← Analysis.module program
  let functions ← program.body.filterMapM fun statement =>
    match statement.shape with
    | .definition name .. => some <$> functionSpec name statement
    | _ => pure none
  let document : Specs := [(moduleName, { functions, types := [], modules := [] })]
  return [document.toJson.pretty]

end Report

end FlowAnalysis
