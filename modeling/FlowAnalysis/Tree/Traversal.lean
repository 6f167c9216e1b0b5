import FlowAnalysis.Tree.Node

/-!
# Traversals of a tree

Both traversals keep the nodes still to be visited on a stack, so their depth does not grow with the
depth of the tree. `Node.walk` lists a node and everything beneath it, parents before children and
children in source order. `Node.walkScope` does the same but stays outside the functions, classes
and lambdas beneath the node.
-/

namespace FlowAnalysis

namespace Node

/-- The number of nodes of a tree. -/
def size (node : Node) : Nat :=
  node.children.attach.foldr (fun ⟨child, _⟩ total => size child + total) 1
termination_by sizeOf node
decreasing_by exact sizeOf_lt_of_mem_children (by assumption)

/-- The number of nodes of some trees. -/
def totalSize (nodes : List Node) : Nat :=
  nodes.foldr (fun node total => size node + total) 0

@[simp]
theorem totalSize_nil : totalSize [] = 0 := rfl

@[simp]
theorem totalSize_cons (node : Node) (nodes : List Node) :
    totalSize (node :: nodes) = node.size + totalSize nodes := rfl

@[simp]
theorem totalSize_append (left right : List Node) :
    totalSize (left ++ right) = totalSize left + totalSize right := by
  induction left with
  | nil => simp
  | cons node left ih =>
      simp [ih]
      omega

theorem size_eq (node : Node) : node.size = 1 + totalSize node.children := by
  have folds : ∀ nodes : List Node,
      nodes.foldr (fun child total => size child + total) 1 = 1 + totalSize nodes := by
    intro nodes
    induction nodes with
    | nil => rfl
    | cons child nodes ih =>
        simp only [List.foldr_cons, totalSize_cons, ih]
        omega
  rw [size, ← folds]
  simp

theorem size_pos (node : Node) : 0 < node.size := by
  rw [size_eq]
  omega

/-- A member of a list of trees is no larger than the list. -/
theorem size_le_sum_of_mem {node : Node} {nodes : List Node} (member : node ∈ nodes) :
    node.size ≤ totalSize nodes := by
  induction nodes with
  | nil => simp at member
  | cons first rest ih =>
      rcases List.mem_cons.1 member with rfl | member
      · simp
      · have := ih member
        simp
        omega

theorem size_lt_of_mem_children {node child : Node} (member : child ∈ node.children) :
    child.size < node.size := by
  have := size_le_sum_of_mem member
  rw [size_eq node]
  omega

/-- The nodes of a stack of trees in preorder. -/
def preorder : List Node → List Node
  | [] => []
  | node :: rest => node :: preorder (node.children ++ rest)
termination_by stack => totalSize stack
decreasing_by
  simp only [totalSize_append, totalSize_cons, size_eq node]
  omega

/-- The nodes of a stack of trees in preorder, without what is inside a nested scope. -/
def scopePreorder : List Node → List Node
  | [] => []
  | node :: rest => node :: scopePreorder ((if node.opensScope then [] else node.children) ++ rest)
termination_by stack => totalSize stack
decreasing_by
  simp only [totalSize_append, totalSize_cons, size_eq node]
  split
  · simp only [totalSize_nil]
    omega
  · omega

/-- A node and everything beneath it. -/
def walk (node : Node) : List Node :=
  preorder [node]

/-- A node and what is beneath it in its own scope. A nested function, class or lambda is listed
itself, but not entered. -/
def walkScope (node : Node) : List Node :=
  node :: scopePreorder node.children

end Node

end FlowAnalysis
