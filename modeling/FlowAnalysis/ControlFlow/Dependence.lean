import FlowAnalysis.ControlFlow.Postdominance

/-!
# Control dependence

A block depends on a branch if it runs on some outcomes of the branch only. For each branching block
the dependents are found by walking forward from its successors: the walk does not go into blocks
that postdominate the branch, and it does not go beyond a block whose nearest postdominator is that
of the branch.
-/

namespace FlowAnalysis

namespace Graph

/-- The dependents met from a stack of blocks on, in the order of the walk. The first argument
bounds the number of blocks visited; each is put on the stack at most once. -/
def walkDependents (graph : Graph) (postdominators : Postdominators) (branch : BlockId) :
    Nat → List BlockId → List BlockId → List BlockId
  | 0, _, _ => []
  | _, _, [] => []
  | bound + 1, scheduled, item :: stack =>
      if postdominators.postdominates item branch then
        walkDependents graph postdominators branch bound scheduled stack
      else
        let next :=
          if postdominators.immediate? item == postdominators.immediate? branch then []
          else (graph.successors item).filter fun id => id ∉ scheduled
        item ::
          walkDependents graph postdominators branch bound (scheduled ++ next)
            (next.reverse ++ stack)

/-- The blocks that depend on a branching block. -/
def dependents (graph : Graph) (postdominators : Postdominators) (branch : BlockId) :
    List BlockId :=
  let starts := graph.successors branch
  if starts.length ≤ 1 then []
  else walkDependents graph postdominators branch graph.size starts starts.reverse

/-- The pairs of a branching block and a block that depends on it. -/
def controlDependencies (graph : Graph) : Except Failure (List (BlockId × BlockId)) := do
  let postdominators ← Postdominators.ofGraph graph
  return graph.reachable.flatMap fun branch =>
    (graph.dependents postdominators branch).map fun dependent => (branch, dependent)

/-- The pairs of a statement of a branching block and a statement that depends on it. -/
def controlPairs (graph : Graph) : Except Failure (List (Node × Node)) := do
  let dependencies ← graph.controlDependencies
  return dependencies.flatMap fun (branch, dependent) =>
    (graph.statements branch).flatMap fun control =>
      (graph.statements dependent).map fun statement => (control, statement)

end Graph

end FlowAnalysis
