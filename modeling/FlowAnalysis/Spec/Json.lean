import FlowAnalysis.Json.Read
import FlowAnalysis.Spec.Basic

/-!
# Specification documents

A document is an object of modules. A function is written as its name alone or as a record; every
member of a module may be missing. In the maps of modules and types a repeated name keeps its first
place and takes its last value. Members that modules and types do not have are passed over; in the
record of a function they are read and then ignored.
-/

namespace FlowAnalysis

namespace ParamRef

/-- The JSON form: an integer or a string. -/
def toJson : ParamRef → Json
  | position index => .natural index
  | name text => .string text

/-- Reads the JSON form. -/
def ofJson? : Json → Option ParamRef
  | .number (.integer (.ofNat index)) => some (position index)
  | .string text => some (name text)
  | _ => none

end ParamRef

namespace FunctionSpec

/-- The record of a function; an empty list of reads and an absent result type are left out. -/
def toJson (spec : FunctionSpec) : Json :=
  .object <|
    [("name", .string spec.name), ("updates", .array (spec.updates.map ParamRef.toJson))] ++
    (if spec.reads.isEmpty then [] else [("reads", .array (spec.reads.map .string))]) ++
    match spec.returns with
    | some type => [("returns", .string type)]
    | none => []

/-- Reads a function from its name or its record. -/
def ofJson? : Json → Option FunctionSpec
  | .string name => some { name }
  | value => do
      let members ← value.members?
      let name ← (← Json.required? members "name").text?
      let updates ←
        Json.listOf? ParamRef.ofJson? ((← Json.optional? members "updates").getD (.array []))
      let reads ← ((← Json.optional? members "reads").getD (.array [])).texts?
      let returns ← ((← Json.optional? members "returns").getD .null).optionalText?
      return { name, updates, reads, returns }

end FunctionSpec

namespace TypeSpec

/-- The record of a type. -/
def toJson (type : TypeSpec) : Json :=
  .object [("methods", .array (type.methods.map FunctionSpec.toJson))]

/-- Reads the record of a type. -/
def ofJson? (value : Json) : Option TypeSpec := do
  let members ← value.record? ["methods"]
  let methods ←
    Json.listOf? FunctionSpec.ofJson? ((← Json.optional? members "methods").getD (.array []))
  return { methods }

/-- A type is read for its methods. -/
def scheme : Json.Scheme :=
  .record [("methods", .any)] false

end TypeSpec

namespace Json

/-- Reads an object as a map whose values have a reader of their own. -/
def dictionary? {Value : Type} (read : Json → Option Value) (value : Json) :
    Option (Dictionary Value) := do
  let entries ← (← value.members?).mapM fun (key, value) => (read value).map fun item => (key, item)
  return Dictionary.ofEntries entries

end Json

namespace ModuleSpec

/-- The record of a module with all its members. -/
def toJson : ModuleSpec → Json
  | ⟨functions, types, modules⟩ =>
      .object
        [("functions", .array (functions.map FunctionSpec.toJson)),
          ("types", .object (types.map fun entry => (entry.1, entry.2.toJson))),
          ("modules", .object (submodulesToJson modules))]
where
  submodulesToJson : List (String × ModuleSpec) → List (String × Json)
    | [] => []
    | (name, module) :: rest => (name, module.toJson) :: submodulesToJson rest

/-- Reads the record of a module whose submodules nest no deeper than the first argument. -/
def ofJsonWithin? : Nat → Json → Option ModuleSpec
  | 0, _ => none
  | depth + 1, value => do
      let members ← value.record? ["functions", "types", "modules"]
      let functions ←
        Json.listOf? FunctionSpec.ofJson? ((← Json.optional? members "functions").getD (.array []))
      let types ←
        Json.dictionary? TypeSpec.ofJson? ((← Json.optional? members "types").getD (.object []))
      let modules ←
        Json.dictionary? (ofJsonWithin? depth)
          ((← Json.optional? members "modules").getD (.object []))
      return { functions, types, modules }

/-- Reads the record of a module. -/
def ofJson? (value : Json) : Option ModuleSpec :=
  ofJsonWithin? value.depth value

/-- A module is read for its functions, types and submodules, as deep as the argument says. -/
def scheme : Nat → Json.Scheme
  | 0 => .any
  | depth + 1 =>
      .record [("functions", .any), ("types", .entries TypeSpec.scheme),
        ("modules", .entries (scheme depth))] false

end ModuleSpec

namespace Specs

/-- The document of a list of modules. -/
def toJson (specs : Specs) : Json :=
  .object (specs.map fun entry => (entry.1, entry.2.toJson))

/-- Reads the modules of a document that is already a JSON value. -/
def ofJson? (value : Json) : Option Specs :=
  value.dictionary? ModuleSpec.ofJson?

/-- A document is read for its modules, which nest less deep than documents may. -/
def scheme : Json.Scheme :=
  .entries (ModuleSpec.scheme Json.nestingLimit)

/-- Reads the modules of a document. -/
def parse? (document : String) : Option Specs :=
  (Json.parseFor? scheme document).bind ofJson?

end Specs

end FlowAnalysis
