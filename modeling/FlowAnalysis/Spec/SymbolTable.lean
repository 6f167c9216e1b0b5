import FlowAnalysis.Spec.Basic
import FlowAnalysis.Tree.Node

/-!
# Symbol tables

A symbol table says which specifications the names of a program stand for. It draws on a fixed list
of modules: an import binds a module, or functions, types and submodules of a module, and the
analysis of a local function or class binds its name. Everything in the built-in module is bound
from the start. A type name used as a function is the constructor of the type.
-/

namespace FlowAnalysis

/-- The specifications that names stand for, over the modules that can be imported. -/
structure SymbolTable where
  specs : Specs
  modules : Dictionary ModuleSpec
  types : Dictionary TypeSpec
  functions : Dictionary ResolvedFunction

namespace SymbolTable

/-- The constructor of a type: its own initializer, or one that mutates the receiver alone. It
returns a value of the type. -/
def constructor (name : String) (type : TypeSpec) : ResolvedFunction :=
  let initializer :=
    (type.method? "__init__").getD { name := "__init__", updates := [.position 0] }
  { spec := { initializer with returns := some name }, returnsType := some type }

/-- The function that a name stands for. -/
def lookupFunction? (table : SymbolTable) (name : String) : Option ResolvedFunction :=
  match table.functions.get? name with
  | some function => some function
  | none => (table.types.get? name).map (constructor name)

/-- The module that a name stands for. -/
def module? (table : SymbolTable) (name : String) : Option ModuleSpec :=
  table.modules.get? name

/-- The type that a name stands for. -/
def type? (table : SymbolTable) (name : String) : Option TypeSpec :=
  table.types.get? name

/-- A function of the module that a name stands for. -/
def lookupModuleFunction? (table : SymbolTable) (module name : String) :
    Option ResolvedFunction := do
  let module ← table.module? module
  let function ← module.function? name
  return module.resolve function

/-- The function that a callee expression names: a name, or a member of a named module. -/
def lookupCallee? (table : SymbolTable) (callee : Node) : Option ResolvedFunction :=
  match callee.shape with
  | .name id => table.lookupFunction? id
  | .dot value name => value.nameId?.bind fun module => table.lookupModuleFunction? module name
  | _ => none

/-- The module at a dotted path. -/
def importable? (table : SymbolTable) (path : String) : Option ModuleSpec :=
  match Text.segments path with
  | [] => none
  | first :: rest => (table.specs.get? first).bind fun module => module.descend? rest

/-- Binds a function to a name. -/
def bindFunction (table : SymbolTable) (name : String) (function : ResolvedFunction) :
    SymbolTable :=
  { table with functions := table.functions.insert name function }

/-- Binds a module to a name. -/
def bindModule (table : SymbolTable) (name : String) (module : ModuleSpec) : SymbolTable :=
  { table with modules := table.modules.insert name module }

/-- Binds a type to a name. -/
def bindType (table : SymbolTable) (name : String) (type : TypeSpec) : SymbolTable :=
  { table with types := table.types.insert name type }

/-- Makes a local function known under its own name. -/
def registerFunction (table : SymbolTable) (spec : FunctionSpec) : SymbolTable :=
  table.bindFunction spec.name { spec }

/-- Imports a module under its path or another name; `none` when there is no such module. -/
def importModule? (table : SymbolTable) (path : String) (boundAs : Option String) :
    Option SymbolTable :=
  (table.importable? path).map (table.bindModule (boundAs.getD path))

/-- Binds every function, submodule and type of a module to its name. -/
def importAll (table : SymbolTable) (module : ModuleSpec) : SymbolTable :=
  let functions :=
    module.functions.foldl
      (fun bound function => Dictionary.insert bound function.name (module.resolve function))
      table.functions
  { table with
    functions
    modules := table.modules.extend module.modules
    types := table.types.extend module.types }

/-- Binds one member of a module, found by a dotted path: a submodule, else a type, else a function.
A name that is not found leaves the table as it is. -/
def importMember (table : SymbolTable) (module : ModuleSpec) (name : ImportName) : SymbolTable :=
  let path := Text.segments name.path
  let last := path.getLastD ""
  let bound := name.boundAs.getD last
  match module.descend? path.dropLast with
  | none => table
  | some scope =>
      match scope.submodule? last, scope.type? last, scope.function? last with
      | some inner, _, _ => table.bindModule bound inner
      | none, some type, _ => table.bindType bound type
      | none, none, some function => table.bindFunction bound (scope.resolve function)
      | none, none, none => table

/-- Imports names from a module; a star stands for all of its members. `none` when there is no such
module. -/
def importFrom? (table : SymbolTable) (base : String) (names : List ImportName) :
    Option SymbolTable :=
  (table.importable? base).map fun module =>
    names.foldl
      (fun table name =>
        if name.path = "*" then table.importAll module else table.importMember module name)
      table

/-- The module whose members are always bound. -/
def builtinModule : String := "__builtins__"

/-- The table over some modules in which only the members of the built-in module are bound. -/
def ofSpecs (specs : Specs) : SymbolTable :=
  let table : SymbolTable := { specs, modules := [], types := [], functions := [] }
  (table.importFrom? builtinModule [{ path := "*", boundAs := none }]).getD table

end SymbolTable

end FlowAnalysis
