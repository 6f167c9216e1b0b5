import FlowAnalysis.Proofs.Tree.Walk
import FlowAnalysis.Tree.Schema
import Mathlib.Tactic.DeriveTraversable

/-!
# The order of a traversal

A traversal keeps the nodes to come on a stack. It lists the node on top and pushes its children in
reverse, so that the first of them comes next and what was on the stack before comes after the last.
That it ends with all nodes in preorder rests on two facts about trees: the children of a node are
all the subtrees it holds, whatever its kind, and a node is never met again beneath itself. The
second is why a traversal that stays in a scope may exempt its root from being passed over.
-/

namespace FlowAnalysis

/-! ### The subtrees of a shape -/

deriving instance Functor for ElifClause
deriving instance Functor for ExceptHandler
deriving instance Functor for WithItem
deriving instance Functor for Argument
deriving instance Functor for DictEntry
deriving instance Functor for Field
deriving instance Functor for Shape

section

variable {Subtree Mark : Type} {mark mark' : Subtree → Mark}

theorem map_eq_map_iff_toList {subtree : Option Subtree} :
    subtree.map mark = subtree.map mark' ↔ ∀ child ∈ subtree.toList, mark child = mark' child := by
  cases subtree <;> simp

/-- If marks tell records apart by some parts, they do so for lists of them. -/
theorem map_eq_map_iff_flatMap {Record : Type → Type} [Functor Record]
    {parts : Record Subtree → List Subtree}
    (tells : ∀ record, mark <$> record = mark' <$> record ↔
      ∀ child ∈ parts record, mark child = mark' child) (records : List (Record Subtree)) :
    records.map (mark <$> ·) = records.map (mark' <$> ·) ↔
      ∀ child ∈ records.flatMap parts, mark child = mark' child := by
  simp only [List.map_inj_left, tells, List.mem_flatMap]
  constructor
  · rintro same child ⟨record, isRecord, isPart⟩
    exact same record isRecord child isPart
  · intro same record isRecord child isPart
    exact same child ⟨record, isRecord, isPart⟩

theorem ElifClause.map_eq_map_iff (clause : ElifClause Subtree) :
    mark <$> clause = mark' <$> clause ↔
      ∀ child ∈ clause.cond :: clause.body, mark child = mark' child := by
  simp [Functor.map, map]

theorem ExceptHandler.map_eq_map_iff (handler : ExceptHandler Subtree) :
    mark <$> handler = mark' <$> handler ↔
      ∀ child ∈ handler.cond.toList ++ handler.body, mark child = mark' child := by
  simp [Functor.map, map, map_eq_map_iff_toList, or_imp, forall_and]

theorem WithItem.map_eq_map_iff (item : WithItem Subtree) :
    mark <$> item = mark' <$> item ↔
      ∀ child ∈ item.context :: item.target.toList, mark child = mark' child := by
  simp [Functor.map, map, map_eq_map_iff_toList]

theorem DictEntry.map_eq_map_iff (entry : DictEntry Subtree) :
    mark <$> entry = mark' <$> entry ↔
      ∀ child ∈ entry.key.toList ++ [entry.value], mark child = mark' child := by
  simp [Functor.map, map, map_eq_map_iff_toList, or_imp, forall_and]

theorem Field.map_eq_map_iff (field : Field Subtree) :
    mark <$> field = mark' <$> field ↔ ∀ child ∈ field.subtrees, mark child = mark' child := by
  cases field with
  | node value => simp [Functor.map, map, subtrees]
  | optionalNode value => simp [Functor.map, map, subtrees, map_eq_map_iff_toList]
  | nodes values => simp [Functor.map, map, subtrees]
  | clauses values =>
      rw [subtrees, ← map_eq_map_iff_flatMap ElifClause.map_eq_map_iff]
      simp [Functor.map, map]
  | handlers values =>
      rw [subtrees, ← map_eq_map_iff_flatMap ExceptHandler.map_eq_map_iff]
      simp [Functor.map, map]
  | items values =>
      rw [subtrees, ← map_eq_map_iff_flatMap WithItem.map_eq_map_iff]
      simp [Functor.map, map]
  | arguments values => simp [Functor.map, map, subtrees, Argument.map]
  | entries values =>
      rw [subtrees, ← map_eq_map_iff_flatMap DictEntry.map_eq_map_iff]
      simp [Functor.map, map]
  | imports | text | optionalText | texts | flag | location | json =>
      simp [Functor.map, map, subtrees]

namespace Shape

theorem tag_map (shape : Shape Subtree) : (mark <$> shape).tag = shape.tag := by
  cases shape <;> rfl

theorem fields_map (shape : Shape Subtree) :
    (mark <$> shape).fields = shape.fields.map (mark <$> ·) := by
  cases shape <;> rfl

theorem eq_of_fields_eq {shape shape' : Shape Subtree} (sameTag : shape.tag = shape'.tag)
    (sameFields : shape.fields = shape'.fields) : shape = shape' := by
  have read := ofFields?_fields shape
  rw [sameTag, sameFields, ofFields?_fields] at read
  exact (Option.some.inj read).symm

/-- The children of a shape are the subtrees it holds, none left out: two ways of marking subtrees
mark the shape alike exactly if they mark its children alike. -/
theorem map_eq_map_iff (shape : Shape Subtree) :
    mark <$> shape = mark' <$> shape ↔ ∀ child ∈ shape.children, mark child = mark' child := by
  rw [children, ← map_eq_map_iff_flatMap Field.map_eq_map_iff, ← fields_map, ← fields_map]
  constructor
  · exact congrArg fields
  · exact eq_of_fields_eq (by rw [tag_map, tag_map])

end Shape

end

namespace Node

/-- A stack, top first, after some nodes have been pushed one after the other. -/
def pushAll (nodes stack : List Node) : List Node :=
  nodes.foldl (fun stack node => node :: stack) stack

theorem pushAll_reverse (nodes stack : List Node) :
    pushAll nodes.reverse stack = nodes ++ stack := by
  simp [pushAll]

/-- From a stack a traversal lists some nodes in order: it takes off and lists the node on top and,
if it enters that node, pushes the children, the last one first. -/
inductive Pops (enters : Node → Prop) : List Node → List Node → Prop where
  | done : Pops enters [] []
  | enter {node : Node} {stack order : List Node} (entered : enters node)
      (rest : Pops enters (pushAll node.children.reverse stack) order) :
      Pops enters (node :: stack) (node :: order)
  | pass {node : Node} {stack order : List Node} (passed : ¬enters node)
      (rest : Pops enters stack order) : Pops enters (node :: stack) (node :: order)

variable {enters : Node → Prop} {stack : List Node}

/-- A traversal can go only one way. -/
theorem Pops.unique {order order' : List Node} (pops : Pops enters stack order)
    (pops' : Pops enters stack order') : order' = order := by
  induction pops generalizing order' with
  | done => cases pops' with | done => rfl
  | enter entered _ ih =>
      cases pops' with
      | enter _ rest' => rw [ih rest']
      | pass passed' _ => exact absurd entered passed'
  | pass passed _ ih =>
      cases pops' with
      | enter entered' _ => exact absurd entered' passed
      | pass _ rest' => rw [ih rest']

theorem pops_preorder (everywhere : ∀ node, enters node) (stack : List Node) :
    Pops enters stack (preorder stack) := by
  fun_induction preorder stack with
  | case1 => exact .done
  | case2 node rest ih => exact .enter (everywhere node) (by rwa [pushAll_reverse])

theorem pops_scopePreorder
    (outside : ∀ node ∈ preorder stack, enters node ↔ node.opensScope = false) :
    Pops enters stack (scopePreorder stack) := by
  fun_induction scopePreorder stack with
  | case1 => exact .done
  | case2 node rest ih =>
      rw [dite_eq_ite] at ih
      rw [preorder, List.forall_mem_cons, preorder_append, List.forall_mem_append] at outside
      rcases outside with ⟨enters_iff, outsideChildren, outsideRest⟩
      cases opens : node.opensScope with
      | true =>
          simp only [opens, if_true, List.nil_append] at ih ⊢
          exact .pass (by simp [enters_iff, opens]) (ih outsideRest)
      | false =>
          simp only [opens, Bool.false_eq_true, if_false, preorder_append,
            List.forall_mem_append] at ih ⊢
          refine .enter (enters_iff.2 opens) ?_
          rw [pushAll_reverse]
          exact ih ⟨outsideChildren, outsideRest⟩

/-- The root is on the stack once, at the start, so being equal to the root exempts nothing else. -/
theorem pops_walkScope (node : Node) :
    Pops (fun inner => inner.opensScope = false ∨ inner = node) [node] node.walkScope := by
  refine .enter (.inr rfl) ?_
  rw [pushAll_reverse, List.append_nil]
  apply pops_scopePreorder
  intro inner isInner
  exact or_iff_left (ne_of_mem_preorder_children isInner)

/-- A traversal of a tree comes to an end, and so does one that passes over the scopes inside the
root, though not over the root. What each lists is the root followed by what it lists of the
children one after the other, where the second one lists a child that opens a scope alone; and it
leaves nodes out without moving the others. The children are the subtrees that the root holds,
whatever its kind, none left out: two ways of marking subtrees mark the root alike exactly if they
mark its children alike. -/
theorem pops_iff_walks (node : Node) :
    (∀ order, Pops (fun _ => True) [node] order ↔ order = node.walk) ∧
    (∀ order, Pops (fun inner => inner.opensScope = false ∨ inner = node) [node] order ↔
      order = node.walkScope) ∧
    node.walk = node :: node.children.flatMap walk ∧
    node.walkScope = node :: node.children.flatMap
      (fun child => if child.opensScope then [child] else child.walkScope) ∧
    node.walkScope.Sublist node.walk ∧
    ∀ {Mark : Type} (mark mark' : Node → Mark), mark <$> node.shape = mark' <$> node.shape ↔
      ∀ child ∈ node.children, mark child = mark' child := by
  have pops : Pops (fun _ => True) [node] node.walk := pops_preorder (fun _ => trivial) [node]
  have popsScope := node.pops_walkScope
  exact ⟨fun order => ⟨pops.unique, fun orderEq => orderEq ▸ pops⟩,
    fun order => ⟨popsScope.unique, fun orderEq => orderEq ▸ popsScope⟩,
    node.walk_eq, node.walkScope_eq, node.walkScope_sublist_walk,
    fun mark mark' => node.shape.map_eq_map_iff⟩

/-- A function within whose scope stand a decorator, a parameter and a lambda expression as its
default, and another one that is returned. -/
def nestedScopes : Node :=
  let lambdaOf (params : List Node) (id : String) : Node :=
    ⟨.lambda params ⟨.name id, default⟩, default⟩
  let parameterOf (id : String) (value : Option Node) : Node :=
    ⟨.parameter id none value false false, default⟩
  ⟨.definition "f" [parameterOf "x" (some (lambdaOf [] "y"))]
    [⟨.returnValues [⟨.name "x", default⟩, lambdaOf [parameterOf "z" none] "z"], default⟩]
    [⟨.name "d", default⟩], default⟩

/-- The function itself is entered and neither lambda expression is. -/
theorem pops_nestedScopes :
    (∃ order, Pops (fun inner => inner.opensScope = false ∨ inner = nestedScopes) [nestedScopes]
      order ∧ order.filterMap nameId? = ["d", "x"] ∧ order.countP opensScope = 3) ∧
    ∃ order, Pops (fun _ => True) [nestedScopes] order ∧
      order.filterMap nameId? = ["d", "y", "x", "z"] := by
  rcases pops_iff_walks nestedScopes with ⟨pops, popsScope, -⟩
  exact ⟨⟨_, (popsScope _).2 rfl, by decide +kernel, by decide +kernel⟩,
    ⟨_, (pops _).2 rfl, by decide +kernel⟩⟩

end Node

end FlowAnalysis
