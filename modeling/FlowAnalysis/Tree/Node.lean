import FlowAnalysis.Location

/-!
# Program trees

A program is a tree of statements and expressions. A `Node` is a `Shape`, which says what kind of
statement or expression it is, together with its location. `Shape` is parameterized by the type of
the subtrees. What a shape holds is listed once, by `Shape.fields`; the children of a node and the
JSON form of a tree both follow from that list.
-/

namespace FlowAnalysis

/-- A module or a member of a module, with the name it is bound to if that is another one. -/
structure ImportName where
  path : String
  boundAs : Option String
deriving DecidableEq, Repr

/-- The name that an import binds. -/
def ImportName.boundName (name : ImportName) : String :=
  name.boundAs.getD name.path

/-- A further condition of a conditional statement with its body. -/
structure ElifClause (Subtree : Type) where
  cond : Subtree
  body : List Subtree
deriving Repr

/-- A handler of a guarded block. -/
structure ExceptHandler (Subtree : Type) where
  cond : Option Subtree
  name : Option String
  body : List Subtree
  location : Location
deriving Repr

/-- A resource of a `with` statement and the target it is bound to. -/
structure WithItem (Subtree : Type) where
  context : Subtree
  target : Option Subtree
deriving Repr

/-- An argument of a call: positional, by keyword, or unpacked. -/
structure Argument (Subtree : Type) where
  actual : Subtree
  keyword : Option String
  varargs : Bool
  kwargs : Bool
deriving Repr

/-- An entry of a dictionary display; one without a key unpacks a mapping. -/
structure DictEntry (Subtree : Type) where
  key : Option Subtree
  value : Subtree
deriving Repr

/-- What a node is, with its subtrees. -/
inductive Shape (Subtree : Type) where
  | module (code : List Subtree)
  | importModules (names : List ImportName)
  | importFrom (base : String) (imports : List ImportName)
  | definition (name : String) (params body decorators : List Subtree)
  | parameter (name : String) (typeHint default : Option Subtree) (star starstar : Bool)
  | classDefinition (name : String) (bases body decorators : List Subtree)
  | assign (op : Option String) (targets sources : List Subtree)
  | delete (targets : List Subtree)
  | assertion (cond : Subtree) (message : Option Subtree)
  | pass
  | breakLoop
  | continueLoop
  | returnValues (values : List Subtree)
  | yieldValues (values : List Subtree) (delegates : Bool)
  | raiseError (error : Option Subtree)
  | globalNames (names : List String)
  | nonlocalNames (names : List String)
  | conditional (cond : Subtree) (body : List Subtree) (elifs : List (ElifClause Subtree))
      (orelse : Option Subtree)
  | elseClause (body : List Subtree)
  | whileLoop (cond : Subtree) (body orelse : List Subtree)
  | forLoop (targets iter body orelse : List Subtree) (declLocation : Location)
  | tryBlock (body : List Subtree) (handlers : List (ExceptHandler Subtree))
      (orelse finalbody : List Subtree)
  | withBlock (items : List (WithItem Subtree)) (body : List Subtree)
  | call (func : Subtree) (args : List (Argument Subtree))
  | index (value : Subtree) (args : List Subtree)
  | slice (start stop step : Option Subtree)
  | dot (value : Subtree) (name : String)
  | ifExpr (test consequent alternative : Subtree)
  | lambda (params : List Subtree) (body : Subtree)
  | unaryOp (op : String) (operand : Subtree)
  | binaryOp (op : String) (left right : Subtree)
  | starred (value : Subtree)
  | tuple (items : List Subtree)
  | list (items comp : List Subtree)
  | set (entries comp : List Subtree)
  | dict (entries : List (DictEntry Subtree)) (comp : List Subtree)
  | compFor (targets : List Subtree) (iter : Subtree)
  | compIf (test : Subtree)
  | name (id : String)
  | literal (value : Json)
deriving Repr

/-- A statement or expression with its location. -/
structure Node where
  shape : Shape Node
  location : Location

/-- The kind of a node without its contents. -/
inductive Tag where
  | module | importModules | importFrom | definition | parameter | classDefinition | assign | delete
  | assertion | pass | breakLoop | continueLoop | returnValues | yieldValues | raiseError
  | globalNames | nonlocalNames | conditional | elseClause | whileLoop | forLoop | tryBlock
  | withBlock | call | index | slice | dot | ifExpr | lambda | unaryOp | binaryOp | starred | tuple
  | list | set | dict | compFor | compIf | name | literal
deriving DecidableEq, Repr

/-- One field of a shape: subtrees in one of several arrangements, or plain data. -/
inductive Field (Subtree : Type) where
  | node (value : Subtree)
  | optionalNode (value : Option Subtree)
  | nodes (values : List Subtree)
  | clauses (values : List (ElifClause Subtree))
  | handlers (values : List (ExceptHandler Subtree))
  | items (values : List (WithItem Subtree))
  | arguments (values : List (Argument Subtree))
  | entries (values : List (DictEntry Subtree))
  | imports (names : List ImportName)
  | text (value : String)
  | optionalText (value : Option String)
  | texts (values : List String)
  | flag (value : Bool)
  | location (value : Location)
  | json (value : Json)

namespace Field

variable {Subtree : Type}

/-- The subtrees of a field in source order. -/
def subtrees : Field Subtree → List Subtree
  | node value => [value]
  | optionalNode value => value.toList
  | nodes values => values
  | clauses values => values.flatMap fun clause => clause.cond :: clause.body
  | handlers values => values.flatMap fun handler => handler.cond.toList ++ handler.body
  | items values => values.flatMap fun item => item.context :: item.target.toList
  | arguments values => values.map Argument.actual
  | entries values => values.flatMap fun entry => entry.key.toList ++ [entry.value]
  | imports _ | text _ | optionalText _ | texts _ | flag _ | location _ | json _ => []

end Field

namespace Shape

variable {Subtree : Type}

/-- The kind of a shape. -/
def tag : Shape Subtree → Tag
  | module .. => .module
  | importModules .. => .importModules
  | importFrom .. => .importFrom
  | definition .. => .definition
  | parameter .. => .parameter
  | classDefinition .. => .classDefinition
  | assign .. => .assign
  | delete .. => .delete
  | assertion .. => .assertion
  | pass => .pass
  | breakLoop => .breakLoop
  | continueLoop => .continueLoop
  | returnValues .. => .returnValues
  | yieldValues .. => .yieldValues
  | raiseError .. => .raiseError
  | globalNames .. => .globalNames
  | nonlocalNames .. => .nonlocalNames
  | conditional .. => .conditional
  | elseClause .. => .elseClause
  | whileLoop .. => .whileLoop
  | forLoop .. => .forLoop
  | tryBlock .. => .tryBlock
  | withBlock .. => .withBlock
  | call .. => .call
  | index .. => .index
  | slice .. => .slice
  | dot .. => .dot
  | ifExpr .. => .ifExpr
  | lambda .. => .lambda
  | unaryOp .. => .unaryOp
  | binaryOp .. => .binaryOp
  | starred .. => .starred
  | tuple .. => .tuple
  | list .. => .list
  | set .. => .set
  | dict .. => .dict
  | compFor .. => .compFor
  | compIf .. => .compIf
  | name .. => .name
  | literal .. => .literal

/-- The contents of a shape, subtrees in source order. -/
def fields : Shape Subtree → List (Field Subtree)
  | module code => [.nodes code]
  | importModules names => [.imports names]
  | importFrom base imports => [.text base, .imports imports]
  | definition identifier params body decorators =>
      [.text identifier, .nodes decorators, .nodes params, .nodes body]
  | parameter identifier typeHint default star starstar =>
      [.text identifier, .optionalNode typeHint, .optionalNode default, .flag star, .flag starstar]
  | classDefinition identifier bases body decorators =>
      [.text identifier, .nodes decorators, .nodes bases, .nodes body]
  | assign op targets sources => [.optionalText op, .nodes targets, .nodes sources]
  | delete targets => [.nodes targets]
  | assertion cond message => [.node cond, .optionalNode message]
  | pass => []
  | breakLoop => []
  | continueLoop => []
  | returnValues values => [.nodes values]
  | yieldValues values delegates => [.nodes values, .flag delegates]
  | raiseError error => [.optionalNode error]
  | globalNames names => [.texts names]
  | nonlocalNames names => [.texts names]
  | conditional cond body elifs orelse =>
      [.node cond, .nodes body, .clauses elifs, .optionalNode orelse]
  | elseClause body => [.nodes body]
  | whileLoop cond body orelse => [.node cond, .nodes body, .nodes orelse]
  | forLoop targets iter body orelse declLocation =>
      [.nodes targets, .nodes iter, .nodes body, .nodes orelse, .location declLocation]
  | tryBlock body handlers orelse finalbody =>
      [.nodes body, .handlers handlers, .nodes orelse, .nodes finalbody]
  | withBlock items body => [.items items, .nodes body]
  | call func args => [.node func, .arguments args]
  | index value args => [.node value, .nodes args]
  | slice start stop step => [.optionalNode start, .optionalNode stop, .optionalNode step]
  | dot value identifier => [.node value, .text identifier]
  | ifExpr test consequent alternative => [.node test, .node consequent, .node alternative]
  | lambda params body => [.nodes params, .node body]
  | unaryOp op operand => [.text op, .node operand]
  | binaryOp op left right => [.text op, .node left, .node right]
  | starred value => [.node value]
  | tuple items => [.nodes items]
  | list items comp => [.nodes items, .nodes comp]
  | set entries comp => [.nodes entries, .nodes comp]
  | dict entries comp => [.entries entries, .nodes comp]
  | compFor targets iter => [.nodes targets, .node iter]
  | compIf test => [.node test]
  | name id => [.text id]
  | literal value => [.json value]

/-- The direct subtrees in source order. -/
def children (shape : Shape Subtree) : List Subtree :=
  shape.fields.flatMap Field.subtrees

end Shape

namespace Node

/-- The direct subnodes in source order. -/
def children (node : Node) : List Node :=
  node.shape.children

/-- The statements of a module, function, class or `else` clause. -/
def body (node : Node) : List Node :=
  match node.shape with
  | .module code => code
  | .definition _ _ body _ => body
  | .classDefinition _ _ body _ => body
  | .elseClause body => body
  | _ => []

/-- The identifier of a name node. -/
def nameId? (node : Node) : Option String :=
  match node.shape with
  | .name id => some id
  | _ => none

/-- Whether a node is a literal. -/
def isLiteral (node : Node) : Bool :=
  match node.shape with
  | .literal _ => true
  | _ => false

/-- Whether names bound inside a node are invisible outside it. -/
def opensScope (node : Node) : Bool :=
  match node.shape with
  | .definition .. | .classDefinition .. | .lambda .. => true
  | _ => false

/-- The text that identifies the location of a node. -/
def key (node : Node) : String :=
  node.location.key

theorem sizeOf_lt_of_mem_subtrees {field : Field Node} {child : Node}
    (member : child ∈ field.subtrees) : sizeOf child < sizeOf field := by
  cases field with
  | node value =>
      simp only [Field.subtrees, List.mem_singleton] at member
      subst member
      simp
  | optionalNode value =>
      simp only [Field.subtrees, Option.mem_toList] at member
      subst member
      simp
      omega
  | nodes values =>
      have smaller := List.sizeOf_lt_of_mem member
      simp only [Field.subtrees] at smaller
      simp
      omega
  | clauses values =>
      simp only [Field.subtrees, List.mem_flatMap, List.mem_cons] at member
      obtain ⟨⟨cond, body⟩, clauseMember, member⟩ := member
      have smaller := List.sizeOf_lt_of_mem clauseMember
      rcases member with rfl | member
      · simp at smaller ⊢
        omega
      · have inner := List.sizeOf_lt_of_mem member
        simp at smaller inner ⊢
        omega
  | handlers values =>
      simp only [Field.subtrees, List.mem_flatMap, List.mem_append, Option.mem_toList] at member
      obtain ⟨⟨cond, name, body, location⟩, handlerMember, member⟩ := member
      have smaller := List.sizeOf_lt_of_mem handlerMember
      rcases member with member | member
      · simp only at member
        subst member
        simp at smaller ⊢
        omega
      · have inner := List.sizeOf_lt_of_mem member
        simp at smaller inner ⊢
        omega
  | items values =>
      simp only [Field.subtrees, List.mem_flatMap, List.mem_cons, Option.mem_toList] at member
      obtain ⟨⟨context, target⟩, itemMember, member⟩ := member
      have smaller := List.sizeOf_lt_of_mem itemMember
      rcases member with rfl | member
      · simp at smaller ⊢
        omega
      · simp only at member
        subst member
        simp at smaller ⊢
        omega
  | arguments values =>
      simp only [Field.subtrees, List.mem_map] at member
      obtain ⟨⟨actual, keyword, varargs, kwargs⟩, argumentMember, rfl⟩ := member
      have smaller := List.sizeOf_lt_of_mem argumentMember
      simp at smaller ⊢
      omega
  | entries values =>
      simp only [Field.subtrees, List.mem_flatMap, List.mem_append, Option.mem_toList,
        List.mem_singleton] at member
      obtain ⟨⟨key, value⟩, entryMember, member⟩ := member
      have smaller := List.sizeOf_lt_of_mem entryMember
      rcases member with member | rfl
      · simp only at member
        subst member
        simp at smaller ⊢
        omega
      · simp at smaller ⊢
        omega
  | imports | text | optionalText | texts | flag | location | json =>
      simp [Field.subtrees] at member

theorem sizeOf_le_of_mem_fields (shape : Shape Node) :
    ∀ field ∈ shape.fields, sizeOf field ≤ sizeOf shape := by
  cases shape <;> simp [Shape.fields] <;> omega

/-- A child is smaller than its node, so recursion may descend to the children. -/
theorem sizeOf_lt_of_mem_children {node child : Node} (member : child ∈ node.children) :
    sizeOf child < sizeOf node := by
  rcases node with ⟨shape, location⟩
  simp only [children, Shape.children, List.mem_flatMap] at member
  obtain ⟨field, fieldMember, member⟩ := member
  have smaller := sizeOf_lt_of_mem_subtrees member
  have bounded := sizeOf_le_of_mem_fields shape field fieldMember
  simp
  omega

end Node

end FlowAnalysis
