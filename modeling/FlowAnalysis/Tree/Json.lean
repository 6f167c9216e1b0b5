import FlowAnalysis.Json.Read
import FlowAnalysis.Tree.Schema
import FlowAnalysis.Tree.Traversal

/-!
# Trees as JSON

`Node.toJson` writes a tree as nested records, every field present, and `Node.ofJson?` reads it
back. The reader ignores members that a record does not have, fills in fields that may be missing,
and refuses a record in which one of its fields is repeated. `Node.parse?` reads a tree from its
text.
-/

namespace FlowAnalysis

namespace ImportName

/-- The record of an imported name. -/
def toJson (name : ImportName) : Json :=
  .object [("path", .string name.path), ("alias", .optionalString name.boundAs)]

/-- Reads the record of an imported name. -/
def ofJson? (value : Json) : Option ImportName := do
  let members ← value.record? ["path", "alias"]
  let path ← (← Json.required? members "path").text?
  let boundAs ← ((← Json.optional? members "alias").getD .null).optionalText?
  return { path, boundAs }

end ImportName

namespace Json

/-- The Boolean under a key, false when the key is missing. -/
def flag? (members : List (String × Json)) (key : String) : Option Bool := do
  ((← optional? members key).getD (.bool false)).bool?

end Json

namespace Field

variable {Subtree : Type}

/-- The written form of an optional subtree, null when it is absent. -/
def optionalJson (write : Subtree → Json) : Option Subtree → Json
  | none => .null
  | some subtree => write subtree

/-- The written form of a field, given that of the subtrees. -/
def toJson (write : Subtree → Json) : Field Subtree → Json
  | node value => write value
  | optionalNode value => optionalJson write value
  | nodes values => .array (values.map write)
  | clauses values =>
      .array <| values.map fun clause =>
        .object [("cond", write clause.cond), ("body", .array (clause.body.map write))]
  | handlers values =>
      .array <| values.map fun handler =>
        .object
          [("cond", optionalJson write handler.cond), ("name", .optionalString handler.name),
            ("body", .array (handler.body.map write)), ("location", handler.location.toJson)]
  | items values =>
      .array <| values.map fun item =>
        .object [("context", write item.context), ("target", optionalJson write item.target)]
  | arguments values =>
      .array <| values.map fun argument =>
        .object
          [("actual", write argument.actual), ("keyword", .optionalString argument.keyword),
            ("varargs", .bool argument.varargs), ("kwargs", .bool argument.kwargs)]
  | entries values =>
      .array <| values.map fun entry =>
        .object [("key", optionalJson write entry.key), ("value", write entry.value)]
  | imports names => .array (names.map ImportName.toJson)
  | text value => .string value
  | optionalText value => .optionalString value
  | texts values => .array (values.map .string)
  | flag value => .bool value
  | location value => value.toJson
  | json value => value

/-- Reads an optional subtree, absent when the value is null. -/
def optional? (read : Json → Option Subtree) : Json → Option (Option Subtree)
  | .null => some none
  | value => (read value).map some

/-- Reads a further condition with its body. -/
def clause? (read : Json → Option Subtree) (value : Json) : Option (ElifClause Subtree) := do
  let members ← value.record? ["cond", "body"]
  let cond ← read (← Json.required? members "cond")
  let body ← Json.listOf? read (← Json.required? members "body")
  return { cond, body }

/-- Reads a handler. -/
def handler? (read : Json → Option Subtree) (value : Json) : Option (ExceptHandler Subtree) := do
  let members ← value.record? ["cond", "name", "body", "location"]
  let cond ← optional? read ((← Json.optional? members "cond").getD .null)
  let name ← ((← Json.optional? members "name").getD .null).optionalText?
  let body ← Json.listOf? read (← Json.required? members "body")
  let location ← Location.ofJson? (← Json.required? members "location")
  return { cond, name, body, location }

/-- Reads a resource and its target. -/
def item? (read : Json → Option Subtree) (value : Json) : Option (WithItem Subtree) := do
  let members ← value.record? ["context", "target"]
  let context ← read (← Json.required? members "context")
  let target ← optional? read ((← Json.optional? members "target").getD .null)
  return { context, target }

/-- Reads an argument of a call. -/
def argument? (read : Json → Option Subtree) (value : Json) : Option (Argument Subtree) := do
  let members ← value.record? ["actual", "keyword", "varargs", "kwargs"]
  let actual ← read (← Json.required? members "actual")
  let keyword ← ((← Json.optional? members "keyword").getD .null).optionalText?
  let varargs ← Json.flag? members "varargs"
  let kwargs ← Json.flag? members "kwargs"
  return { actual, keyword, varargs, kwargs }

/-- Reads an entry of a dictionary display. -/
def keyValue? (read : Json → Option Subtree) (value : Json) : Option (DictEntry Subtree) := do
  let members ← value.record? ["key", "value"]
  let key ← optional? read ((← Json.optional? members "key").getD .null)
  let value ← read (← Json.required? members "value")
  return { key, value }

/-- Reads a field of a given kind, given a reader for the subtrees. -/
def ofJson? (read : Json → Option Subtree) (kind : FieldKind) (value : Json) :
    Option (Field Subtree) :=
  match kind with
  | .node => (read value).map .node
  | .optionalNode => (optional? read value).map .optionalNode
  | .nodes => (Json.listOf? read value).map .nodes
  | .clauses => (Json.listOf? (clause? read) value).map .clauses
  | .handlers => (Json.listOf? (handler? read) value).map .handlers
  | .items => (Json.listOf? (item? read) value).map .items
  | .arguments => (Json.listOf? (argument? read) value).map .arguments
  | .entries => (Json.listOf? (keyValue? read) value).map .entries
  | .imports => (Json.listOf? ImportName.ofJson? value).map .imports
  | .text => value.text?.map .text
  | .optionalText => value.optionalText?.map .optionalText
  | .texts => value.texts?.map .texts
  | .flag => value.bool?.map .flag
  | .location => (Location.ofJson? value).map .location
  | .json => some (.json value.merged)

/-- Reads the field that a schema describes from the members of a record. -/
def ofMembers? (read : Json → Option Subtree) (members : List (String × Json))
    (schema : FieldSchema) : Option (Field Subtree) :=
  match Json.optional? members schema.key with
  | none => none
  | some none => if schema.required then none else schema.kind.empty?
  | some (some value) => ofJson? read schema.kind value

end Field

namespace Shape

/-- The written form of a shape without its location: the tag and the named fields. -/
def toMembers {Subtree : Type} (write : Subtree → Json) (shape : Shape Subtree) :
    List (String × Json) :=
  ("type", .string shape.tag.recordName) ::
    shape.tag.inRecord
      (List.zipWith (fun schema field => (schema.key, field.toJson write)) shape.tag.schema
        shape.fields)

/-- Reads a shape from the members of a record. -/
def ofMembers? {Subtree : Type} (read : Json → Option Subtree) (members : List (String × Json)) :
    Option (Shape Subtree) := do
  let tag ← Tag.ofJson? (← Json.required? members "type")
  let fields ← tag.schema.mapM (Field.ofMembers? read members)
  ofFields? tag fields

end Shape

namespace Node

/-- Writes a tree of at most as many nodes as the first argument says. -/
def toJsonWithin : Nat → Node → Json
  | 0, _ => .null
  | bound + 1, node =>
      .object (node.shape.toMembers (toJsonWithin bound) ++ [("location", node.location.toJson)])

/-- Writes a tree. -/
def toJson (node : Node) : Json :=
  toJsonWithin node.size node

/-- Reads a tree whose JSON form nests no deeper than the first argument. -/
def ofJsonWithin? : Nat → Json → Option Node
  | 0, _ => none
  | depth + 1, value => do
      let members ← value.members?
      let shape ← Shape.ofMembers? (ofJsonWithin? depth) members
      let location ← Location.ofJson? (← Json.required? members "location")
      return { shape, location }

/-- Reads a tree. -/
def ofJson? (value : Json) : Option Node :=
  ofJsonWithin? value.depth value

/-- A tree is read for all of its members, but its location for the parts of a location alone. -/
def scheme : Json.Scheme :=
  let location : Json.Scheme :=
    .record [("first_line", .any), ("first_column", .any), ("last_line", .any),
      ("last_column", .any), ("path", .any)] false
  .record [("location", location)] true

/-- Reads a tree from its text. -/
def parse? (document : String) : Option Node :=
  (Json.parseFor? scheme document).bind ofJson?

end Node

end FlowAnalysis
