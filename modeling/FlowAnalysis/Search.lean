/-!
# Breadth-first search

The layers of a search from some starting nodes: the nodes that some path of length zero, one, two
and so on reaches and no shorter path does, each layer in the order in which its nodes are found.
The first argument bounds the number of layers; in a finite graph the number of nodes suffices.
-/

namespace FlowAnalysis

namespace Search

variable {Vertex : Type} [DecidableEq Vertex]

/-- The nodes that some step from a frontier reaches for the first time. -/
def fresh (step : Vertex → List Vertex) (found frontier : List Vertex) : List Vertex :=
  ((frontier.flatMap step).filter fun vertex => vertex ∉ found).eraseDups

/-- The layers from a frontier on, given all nodes found so far. -/
def layersFrom (step : Vertex → List Vertex) : Nat → List Vertex → List Vertex → List (List Vertex)
  | 0, _, _ => []
  | bound + 1, found, frontier =>
      if frontier.isEmpty then []
      else
        let next := fresh step found frontier
        frontier :: layersFrom step bound (found ++ next) next

/-- The layers of a search from some starting nodes. -/
def layers (step : Vertex → List Vertex) (bound : Nat) (starts : List Vertex) :
    List (List Vertex) :=
  layersFrom step bound starts.eraseDups starts.eraseDups

/-- The nodes that a search finds, in breadth-first order. -/
def reached (step : Vertex → List Vertex) (bound : Nat) (starts : List Vertex) : List Vertex :=
  (layers step bound starts).flatten

end Search

end FlowAnalysis
