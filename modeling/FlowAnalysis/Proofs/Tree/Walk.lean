import FlowAnalysis.Tree.Traversal

/-!
# What is beneath a node

The list of a node and everything beneath it is the node followed by the lists of its children. The
list within its scope is the node followed by the lists within the scopes of its children, of which
those that open a scope stand alone.
-/

namespace FlowAnalysis

namespace Node

theorem preorder_append (nodes nodes' : List Node) :
    preorder (nodes ++ nodes') = preorder nodes ++ preorder nodes' := by
  fun_induction preorder nodes with
  | case1 => rfl
  | case2 node rest ih =>
      rw [List.append_assoc] at ih
      rw [List.cons_append, preorder, ih, List.cons_append]

theorem preorder_eq_flatMap (nodes : List Node) : preorder nodes = nodes.flatMap walk := by
  induction nodes with
  | nil => simp [preorder]
  | cons node rest ih =>
      rw [List.flatMap_cons, ← ih, walk, ← preorder_append]
      rfl

theorem walk_eq (node : Node) : node.walk = node :: node.children.flatMap walk := by
  rw [walk, preorder, List.append_nil, preorder_eq_flatMap]

theorem self_mem_walk (node : Node) : node ∈ node.walk := by
  rw [walk_eq]
  exact List.mem_cons_self

theorem flatMap_walk_subset {node : Node} {inner : List Node} (areChildren : inner ⊆ node.children) :
    inner.flatMap walk ⊆ node.walk := by
  rw [walk_eq node]
  intro other isOther
  rcases List.mem_flatMap.1 isOther with ⟨child, isChild, isOther⟩
  exact List.mem_cons_of_mem _ (List.mem_flatMap.2 ⟨child, areChildren isChild, isOther⟩)

theorem walk_subset_of_mem_children {node child : Node} (isChild : child ∈ node.children) :
    child.walk ⊆ node.walk := by
  have subset := flatMap_walk_subset (List.cons_subset.2 ⟨isChild, List.nil_subset _⟩)
  simpa using subset

theorem walk_subset_of_mem_walk {node inner : Node} (isInner : inner ∈ node.walk) :
    inner.walk ⊆ node.walk := by
  rw [walk_eq] at isInner
  rcases List.mem_cons.1 isInner with rfl | isInner
  · exact List.Subset.refl _
  · rcases List.mem_flatMap.1 isInner with ⟨child, isChild, isInner⟩
    apply List.Subset.trans (walk_subset_of_mem_walk isInner)
    exact walk_subset_of_mem_children isChild
termination_by sizeOf node
decreasing_by exact Node.sizeOf_lt_of_mem_children isChild

theorem size_le_of_mem_walk {node inner : Node} (isInner : inner ∈ node.walk) :
    inner.size ≤ node.size := by
  rw [walk_eq] at isInner
  rcases List.mem_cons.1 isInner with rfl | isInner
  · exact Nat.le_refl _
  · rcases List.mem_flatMap.1 isInner with ⟨child, isChild, isInner⟩
    have smaller := size_lt_of_mem_children isChild
    have := size_le_of_mem_walk isInner
    omega
termination_by sizeOf node
decreasing_by exact sizeOf_lt_of_mem_children isChild

/-- No node beneath another one is that node again. -/
theorem ne_of_mem_preorder_children {node inner : Node}
    (isInner : inner ∈ preorder node.children) : inner ≠ node := by
  rintro rfl
  rw [preorder_eq_flatMap] at isInner
  rcases List.mem_flatMap.1 isInner with ⟨child, isChild, isInner⟩
  have smaller := size_lt_of_mem_children isChild
  have := size_le_of_mem_walk isInner
  omega

/-! ### Within a scope -/

theorem scopePreorder_append (nodes nodes' : List Node) :
    scopePreorder (nodes ++ nodes') = scopePreorder nodes ++ scopePreorder nodes' := by
  fun_induction scopePreorder nodes with
  | case1 => rfl
  | case2 node rest ih =>
      rw [dite_eq_ite, List.append_assoc] at ih
      rw [List.cons_append, scopePreorder, ih, List.cons_append]

theorem scopePreorder_eq_flatMap (nodes : List Node) :
    scopePreorder nodes =
      nodes.flatMap fun node => if node.opensScope then [node] else node.walkScope := by
  induction nodes with
  | nil => simp [scopePreorder]
  | cons node rest ih =>
      rw [scopePreorder, scopePreorder_append, ih, List.flatMap_cons]
      split
      · simp [scopePreorder]
      · rfl

theorem walkScope_eq (node : Node) :
    node.walkScope = node ::
      node.children.flatMap fun child => if child.opensScope then [child] else child.walkScope := by
  rw [walkScope, scopePreorder_eq_flatMap]

theorem mem_walkScope_of_leaf {node inner : Node} (leaf : node.children = []) :
    inner ∈ node.walkScope ↔ inner = node := by
  rw [walkScope_eq, leaf]
  exact List.mem_singleton

theorem scopePreorder_sublist (nodes : List Node) :
    (scopePreorder nodes).Sublist (preorder nodes) := by
  fun_induction scopePreorder nodes with
  | case1 => exact List.nil_sublist _
  | case2 node rest ih =>
      rw [preorder, preorder_append]
      apply List.Sublist.cons_cons
      apply ih.trans
      rw [preorder_append]
      split
      · rw [preorder, List.nil_append]
        exact List.sublist_append_right _ _
      · exact List.Sublist.refl _

theorem walkScope_sublist_walk (node : Node) : node.walkScope.Sublist node.walk := by
  rw [walkScope, walk, preorder, List.append_nil]
  exact (scopePreorder_sublist _).cons_cons node

end Node

end FlowAnalysis
