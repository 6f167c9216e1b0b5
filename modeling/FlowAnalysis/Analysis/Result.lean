import FlowAnalysis.Reference.DefUse
import FlowAnalysis.Search

/-!
# Results and slices

An analysis yields dataflow edges and the references that nothing reaches. The statements that
depend on one statement are those that its edges lead to. They are listed in topological order;
statements that depend on each other stand together, in the order of the program text.
-/

namespace FlowAnalysis

/-- What an analysis found. -/
structure AnalysisResult where
  dataflows : DataflowSet := .empty
  /-- Updates and uses that no binding inside the analyzed scope reaches. -/
  undefinedRefs : RefSet := .empty
  /-- The number of blocks processed. -/
  iterations : Nat := 0
  /-- Whether the states were stable at the end. -/
  converged : Bool := true

namespace Search

variable {Vertex : Type} [DecidableEq Vertex]

/-- The vertices that a depth-first search has seen, and those it has finished, in order. -/
structure Visit (Vertex : Type) where
  seen : List Vertex
  finished : List Vertex

/-- Visits a vertex and what it leads to, as deep as the first argument says; a vertex is finished
after everything that it leads to. -/
def visit (step : Vertex → List Vertex) : Nat → Vertex → Visit Vertex → Visit Vertex
  | 0, _, state => state
  | depth + 1, vertex, state =>
      if vertex ∈ state.seen then state
      else
        let inner :=
          (step vertex).foldl (fun state next => visit step depth next state)
            { state with seen := vertex :: state.seen }
        { inner with finished := inner.finished ++ [vertex] }

/-- The vertices of a graph in the order in which a depth-first search finishes them. -/
def finishingOrder (step : Vertex → List Vertex) (vertices : List Vertex) : List Vertex :=
  (vertices.foldl (fun state vertex => visit step (vertices.length + 1) vertex state)
    { seen := [], finished := [] }).finished

/-- Groups vertices that reach each other. Each group stands where its last member does, from the
last to the first, and keeps the given order inside. -/
def componentsFromLast (reaches : Vertex → Vertex → Bool) (finished : List Vertex) :
    List (List Vertex) :=
  let component (vertex : Vertex) : List Vertex :=
    finished.filter fun other => other = vertex || (reaches vertex other && reaches other vertex)
  (finished.reverse.foldl
    (fun (groups : List (List Vertex)) vertex =>
      if groups.any fun group => vertex ∈ group then groups else groups ++ [component vertex])
    [])

end Search

namespace AnalysisResult

/-- The keys of the statements on an edge, in the order in which the edges mention them. -/
def statementKeys (result : AnalysisResult) : List String :=
  (result.dataflows.toList.flatMap fun flow => [flow.source.key, flow.target.key]).eraseDups

/-- The first statement on an edge that has a key. -/
def statement? (result : AnalysisResult) (key : String) : Option Node :=
  (result.dataflows.toList.flatMap fun flow => [flow.source, flow.target]).find? fun node =>
    node.key == key

/-- The keys to which edges lead from a key, the latest edge first. -/
def targets (result : AnalysisResult) (key : String) : List String :=
  ((result.dataflows.toList.filter fun flow => flow.source.key == key).map
    fun flow => flow.target.key).reverse

/-- The keys that one or more edges lead to from a key. -/
def reachedKeys (result : AnalysisResult) (key : String) : List String :=
  Search.reached result.targets (result.statementKeys.length + 1) (result.targets key)

/-- The statements that depend on one, directly or through others, without that one. -/
def dependentsOf (result : AnalysisResult) (node : Node) : List Node :=
  let keys := result.statementKeys
  let reached := keys.map fun key => (key, result.reachedKeys key)
  let reaches (source target : String) : Bool :=
    target ∈ (reached.lookup source).getD []
  let wanted := (result.reachedKeys node.key).filter fun key => key != node.key
  let components := Search.componentsFromLast reaches (Search.finishingOrder result.targets keys)
  components.flatMap fun component =>
    ((component.filter fun key => key ∈ wanted).filterMap result.statement?).mergeSort
      fun left right => !right.location.startsBefore left.location

/-- The uses that no binding inside the scope reaches: what the scope reads from outside. -/
def freeUses (result : AnalysisResult) : RefSet :=
  result.undefinedRefs.filter fun reference => reference.level == .use

end AnalysisResult

end FlowAnalysis
