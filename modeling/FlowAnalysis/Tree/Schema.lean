import FlowAnalysis.Tree.Node

/-!
# The record form of a tree

Each kind of node is a record with a tag and named fields. This file says how the kinds and their
fields are called, which fields may be missing, and how a shape is put together from the contents of
its fields. `Shape.ofFields?` inverts `Shape.fields`.
-/

namespace FlowAnalysis

/-- What a field of a record holds. -/
inductive FieldKind where
  | node | optionalNode | nodes | clauses | handlers | items | arguments | entries | imports
  | text | optionalText | texts | flag | location | json
deriving DecidableEq, Repr

/-- A named field of a record; one that is not required may be missing and is then empty. -/
structure FieldSchema where
  key : String
  kind : FieldKind
  required : Bool

namespace FieldSchema

/-- A field that must be present. -/
def needs (key : String) (kind : FieldKind) : FieldSchema :=
  ⟨key, kind, true⟩

/-- A field that may be missing. -/
def may (key : String) (kind : FieldKind) : FieldSchema :=
  ⟨key, kind, false⟩

end FieldSchema

/-- The empty contents of a field, for a record in which it is missing. -/
def FieldKind.empty? {Subtree : Type} : FieldKind → Option (Field Subtree)
  | .optionalNode => some (.optionalNode none)
  | .nodes => some (.nodes [])
  | .clauses => some (.clauses [])
  | .handlers => some (.handlers [])
  | .items => some (.items [])
  | .arguments => some (.arguments [])
  | .entries => some (.entries [])
  | .imports => some (.imports [])
  | .optionalText => some (.optionalText none)
  | .texts => some (.texts [])
  | .flag => some (.flag false)
  | .node | .text | .location | .json => none

namespace Tag

/-- All kinds of nodes. -/
def all : List Tag :=
  [module, importModules, importFrom, definition, parameter, classDefinition, assign, delete,
    assertion, pass, breakLoop, continueLoop, returnValues, yieldValues, raiseError, globalNames,
    nonlocalNames, conditional, elseClause, whileLoop, forLoop, tryBlock, withBlock, call, index,
    slice, dot, ifExpr, lambda, unaryOp, binaryOp, starred, tuple, list, set, dict, compFor, compIf,
    name, literal]

/-- The tag of a kind in the record form. -/
def recordName : Tag → String
  | module => "module"
  | importModules => "import"
  | importFrom => "from"
  | definition => "def"
  | parameter => "param"
  | classDefinition => "class"
  | assign => "assign"
  | delete => "del"
  | assertion => "assert"
  | pass => "pass"
  | breakLoop => "break"
  | continueLoop => "continue"
  | returnValues => "return"
  | yieldValues => "yield"
  | raiseError => "raise"
  | globalNames => "global"
  | nonlocalNames => "nonlocal"
  | conditional => "if"
  | elseClause => "else"
  | whileLoop => "while"
  | forLoop => "for"
  | tryBlock => "try"
  | withBlock => "with"
  | call => "call"
  | index => "index"
  | slice => "slice"
  | dot => "dot"
  | ifExpr => "if_expr"
  | lambda => "lambda"
  | unaryOp => "unary_op"
  | binaryOp => "binary_op"
  | starred => "starred"
  | tuple => "tuple"
  | list => "list"
  | set => "set"
  | dict => "dict"
  | compFor => "comp_for"
  | compIf => "comp_if"
  | name => "name"
  | literal => "literal"

/-- The name under which a kind is reported; three kinds of expressions have a shorter one. -/
def typeName : Tag → String
  | ifExpr => "ifexpr"
  | unaryOp => "unop"
  | binaryOp => "binop"
  | tag => tag.recordName

/-- The kind with a given tag. -/
def ofRecordName? (name : String) : Option Tag :=
  all.find? fun tag => tag.recordName = name

/-- The kind that a tag member names, by its name or by its place in the list of kinds. -/
def ofJson? : Json → Option Tag
  | .string text => ofRecordName? text
  | .number (.integer (.ofNat place)) => all[place]?
  | _ => none

open FieldSchema in
/-- The fields of a kind, in the order of `Shape.fields`. -/
def schema : Tag → List FieldSchema
  | module => [needs "code" .nodes]
  | importModules => [needs "names" .imports]
  | importFrom => [needs "base" .text, needs "imports" .imports]
  | definition =>
      [needs "name" .text, may "decorators" .nodes, needs "params" .nodes, needs "body" .nodes]
  | parameter =>
      [needs "name" .text, may "annotation" .optionalNode, may "default" .optionalNode,
        may "star" .flag, may "starstar" .flag]
  | classDefinition =>
      [needs "name" .text, may "decorators" .nodes, may "bases" .nodes, needs "body" .nodes]
  | assign => [may "op" .optionalText, needs "targets" .nodes, needs "sources" .nodes]
  | delete => [needs "targets" .nodes]
  | assertion => [needs "cond" .node, may "message" .optionalNode]
  | pass => []
  | breakLoop => []
  | continueLoop => []
  | returnValues => [may "values" .nodes]
  | yieldValues => [may "values" .nodes, may "from" .flag]
  | raiseError => [may "err" .optionalNode]
  | globalNames => [needs "names" .texts]
  | nonlocalNames => [needs "names" .texts]
  | conditional =>
      [needs "cond" .node, needs "body" .nodes, may "elifs" .clauses, may "orelse" .optionalNode]
  | elseClause => [needs "body" .nodes]
  | whileLoop => [needs "cond" .node, needs "body" .nodes, may "orelse" .nodes]
  | forLoop =>
      [needs "targets" .nodes, needs "iter" .nodes, needs "body" .nodes, may "orelse" .nodes,
        needs "decl_location" .location]
  | tryBlock =>
      [needs "body" .nodes, may "handlers" .handlers, may "orelse" .nodes, may "finalbody" .nodes]
  | withBlock => [needs "items" .items, needs "body" .nodes]
  | call => [needs "func" .node, may "args" .arguments]
  | index => [needs "value" .node, needs "args" .nodes]
  | slice => [may "start" .optionalNode, may "stop" .optionalNode, may "step" .optionalNode]
  | dot => [needs "value" .node, needs "name" .text]
  | ifExpr => [needs "test" .node, needs "then" .node, needs "orelse" .node]
  | lambda => [needs "params" .nodes, needs "body" .node]
  | unaryOp => [needs "op" .text, needs "operand" .node]
  | binaryOp => [needs "op" .text, needs "left" .node, needs "right" .node]
  | starred => [needs "value" .node]
  | tuple => [needs "items" .nodes]
  | list => [needs "items" .nodes, may "comp" .nodes]
  | set => [needs "entries" .nodes, may "comp" .nodes]
  | dict => [needs "entries" .entries, may "comp" .nodes]
  | compFor => [needs "targets" .nodes, needs "iter" .node]
  | compIf => [needs "test" .node]
  | name => [needs "id" .text]
  | literal => [needs "value" .json]

/-- What belongs to the fields of a kind, in the order of the record. The decorators stand in front
of what they decorate, but they come last in its record. -/
def inRecord {Item : Type} : Tag → List Item → List Item
  | definition, identifier :: decorators :: others => identifier :: others ++ [decorators]
  | classDefinition, identifier :: decorators :: others => identifier :: others ++ [decorators]
  | _, items => items

end Tag

namespace Shape

variable {Subtree : Type}

/-- The shape of a kind with the given contents, if they are contents of that kind. -/
def ofFields? : Tag → List (Field Subtree) → Option (Shape Subtree)
  | .module, [.nodes code] => some (.module code)
  | .importModules, [.imports names] => some (.importModules names)
  | .importFrom, [.text base, .imports imports] => some (.importFrom base imports)
  | .definition, [.text identifier, .nodes decorators, .nodes params, .nodes body] =>
      some (.definition identifier params body decorators)
  | .parameter, [.text identifier, .optionalNode typeHint, .optionalNode default, .flag star,
      .flag starstar] =>
      some (.parameter identifier typeHint default star starstar)
  | .classDefinition, [.text identifier, .nodes decorators, .nodes bases, .nodes body] =>
      some (.classDefinition identifier bases body decorators)
  | .assign, [.optionalText op, .nodes targets, .nodes sources] =>
      some (.assign op targets sources)
  | .delete, [.nodes targets] => some (.delete targets)
  | .assertion, [.node cond, .optionalNode message] => some (.assertion cond message)
  | .pass, [] => some .pass
  | .breakLoop, [] => some .breakLoop
  | .continueLoop, [] => some .continueLoop
  | .returnValues, [.nodes values] => some (.returnValues values)
  | .yieldValues, [.nodes values, .flag delegates] => some (.yieldValues values delegates)
  | .raiseError, [.optionalNode error] => some (.raiseError error)
  | .globalNames, [.texts names] => some (.globalNames names)
  | .nonlocalNames, [.texts names] => some (.nonlocalNames names)
  | .conditional, [.node cond, .nodes body, .clauses elifs, .optionalNode orelse] =>
      some (.conditional cond body elifs orelse)
  | .elseClause, [.nodes body] => some (.elseClause body)
  | .whileLoop, [.node cond, .nodes body, .nodes orelse] => some (.whileLoop cond body orelse)
  | .forLoop, [.nodes targets, .nodes iter, .nodes body, .nodes orelse, .location declLocation] =>
      some (.forLoop targets iter body orelse declLocation)
  | .tryBlock, [.nodes body, .handlers handlers, .nodes orelse, .nodes finalbody] =>
      some (.tryBlock body handlers orelse finalbody)
  | .withBlock, [.items items, .nodes body] => some (.withBlock items body)
  | .call, [.node func, .arguments args] => some (.call func args)
  | .index, [.node value, .nodes args] => some (.index value args)
  | .slice, [.optionalNode start, .optionalNode stop, .optionalNode step] =>
      some (.slice start stop step)
  | .dot, [.node value, .text identifier] => some (.dot value identifier)
  | .ifExpr, [.node test, .node consequent, .node alternative] =>
      some (.ifExpr test consequent alternative)
  | .lambda, [.nodes params, .node body] => some (.lambda params body)
  | .unaryOp, [.text op, .node operand] => some (.unaryOp op operand)
  | .binaryOp, [.text op, .node left, .node right] => some (.binaryOp op left right)
  | .starred, [.node value] => some (.starred value)
  | .tuple, [.nodes items] => some (.tuple items)
  | .list, [.nodes items, .nodes comp] => some (.list items comp)
  | .set, [.nodes entries, .nodes comp] => some (.set entries comp)
  | .dict, [.entries entries, .nodes comp] => some (.dict entries comp)
  | .compFor, [.nodes targets, .node iter] => some (.compFor targets iter)
  | .compIf, [.node test] => some (.compIf test)
  | .name, [.text id] => some (.name id)
  | .literal, [.json value] => some (.literal value)
  | _, _ => none

@[simp]
theorem ofFields?_fields (shape : Shape Subtree) :
    ofFields? shape.tag shape.fields = some shape := by
  cases shape <;> rfl

end Shape

namespace Node

/-- The name under which the kind of a node is reported. -/
def typeName (node : Node) : String :=
  node.shape.tag.typeName

end Node

end FlowAnalysis
