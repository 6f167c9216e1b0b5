import FlowAnalysis.Reference.DefUse
import FlowAnalysis.Tree.Traversal

/-!
# Names in expressions

Which names an expression reads, which names a target binds or mutates, and which variable an
expression is rooted in.
-/

namespace FlowAnalysis

/-- The names that a node binds for what is inside it: the targets of a comprehension clause, the
parameters of a lambda. -/
def Node.innerBindings (node : Node) : List String :=
  match node.shape with
  | .compFor targets _ => targets.flatMap fun target => target.walk.filterMap Node.nameId?
  | .lambda params _ =>
      params.filterMap fun param =>
        match param.shape with
        | .parameter name .. => some name
        | _ => none
  | _ => []

/-- A plain reference at a node. -/
def Reference.atNode (level : Level) (name : String) (node statement : Node) : Reference :=
  { kind := .plain, level, name, location := node.location, owner := statement }

/-- The uses of every name in an expression that is not bound somewhere inside it. -/
def nameUses (expression statement : Node) : List Reference :=
  let nodes := expression.walk
  let bound := nodes.flatMap Node.innerBindings
  nodes.filterMap fun node =>
    node.nameId?.bind fun name =>
      if name ∈ bound then none else some (.atNode .use name node statement)

mutual

/-- The references that a target makes. A bare name is defined, or updated when the whole target is;
names under an attribute or a subscript are updated, and the subscripts are read. The inferred type
belongs to a target that is a bare name. -/
def targetReferences (statement : Node) (level : Level) (inferred : Option TypeSpec) :
    Node → List Reference
  | ⟨.name id, location⟩ =>
      [{ Reference.atNode level id ⟨.name id, location⟩ statement with inferredType := inferred }]
  | ⟨.dot value _, _⟩ => targetReferences statement .update none value
  | ⟨.index value args, _⟩ =>
      targetReferences statement .update none value ++
        args.flatMap fun argument => nameUses argument statement
  | ⟨.tuple items, _⟩ => targetListReferences statement level items
  | ⟨.list items _, _⟩ => targetListReferences statement level items
  | ⟨.starred value, _⟩ => targetReferences statement level none value
  | _ => []

/-- The references that a list of targets makes. -/
def targetListReferences (statement : Node) (level : Level) : List Node → List Reference
  | [] => []
  | target :: rest =>
      targetReferences statement level none target ++ targetListReferences statement level rest

end

/-- The variable whose value an expression reads or mutates in the end: the name at the bottom of a
chain of attributes, subscripts and method calls. -/
def rootVariable? : Node → Option String
  | ⟨.name id, _⟩ => some id
  | ⟨.dot value _, _⟩ => rootVariable? value
  | ⟨.index value _, _⟩ => rootVariable? value
  | ⟨.call ⟨.dot value _, _⟩ _, _⟩ => rootVariable? value
  | _ => none

namespace DefUse

/-- Adds a reference at its own level. -/
def insert (defUse : DefUse) (reference : Reference) : DefUse :=
  match reference.level with
  | .definition => { defUse with definitions := defUse.definitions.insert reference }
  | .update => { defUse with updates := defUse.updates.insert reference }
  | .use => { defUse with uses := defUse.uses.insert reference }

/-- The references of a list, each at its own level. -/
def ofReferences (references : List Reference) : DefUse :=
  references.foldl insert empty

end DefUse

end FlowAnalysis
