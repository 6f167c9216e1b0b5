import FlowAnalysis.Dictionary
import FlowAnalysis.Text

/-!
# Side-effect specifications

A specification says of a function which of its parameters it mutates and which type of value it
returns, of a type which methods it has, and of a module which functions, types and submodules it
has. Positional arguments count from one; position zero is the receiver of a method call. What a
function returns is a name until it is resolved against the types of the module that declares it.
-/

namespace FlowAnalysis

/-- A mutated parameter, by position or by name. -/
inductive ParamRef where
  | position (index : Nat)
  | name (text : String)
deriving DecidableEq, Repr

namespace ParamRef

/-- The largest position that can be written. -/
def largestPosition : Nat := 0xffffffffffffffff

/-- The position meant: given directly, or as a text of digits, blanks around it and one plus sign
in front of it allowed. -/
def position? : ParamRef → Option Nat
  | position index => some index
  | name text =>
      let trimmed := Text.trim text.toList
      let digits :=
        match trimmed with
        | '+' :: rest => rest
        | _ => trimmed
      (Text.decimal? digits).filter (· ≤ largestPosition)

end ParamRef

/-- What a function does to its arguments and what it returns. -/
structure FunctionSpec where
  name : String
  updates : List ParamRef := []
  reads : List String := []
  returns : Option String := none
deriving DecidableEq, Repr

/-- The methods of a type. -/
structure TypeSpec where
  methods : List FunctionSpec
deriving DecidableEq, Repr

/-- A function together with the type that its result is known to have. -/
structure ResolvedFunction where
  spec : FunctionSpec
  returnsType : Option TypeSpec := none
deriving DecidableEq, Repr

/-- The functions, types and submodules of a module. -/
structure ModuleSpec where
  functions : List FunctionSpec
  types : List (String × TypeSpec)
  modules : List (String × ModuleSpec)
deriving Repr, Inhabited

namespace FunctionSpec

/-- The mutated positions in the order of declaration. -/
def positions (spec : FunctionSpec) : List Nat :=
  spec.updates.filterMap ParamRef.position?

/-- Whether a position is mutated. -/
def mutates (spec : FunctionSpec) (position : Nat) : Bool :=
  spec.positions.contains position

end FunctionSpec

namespace TypeSpec

/-- The first method of a given name. -/
def method? (type : TypeSpec) (name : String) : Option FunctionSpec :=
  type.methods.find? fun method => method.name = name

end TypeSpec

namespace ModuleSpec

/-- The module without members. -/
def empty : ModuleSpec :=
  { functions := [], types := [], modules := [] }

/-- The first function of a given name. -/
def function? (module : ModuleSpec) (name : String) : Option FunctionSpec :=
  module.functions.find? fun function => function.name = name

/-- The type of a given name. -/
def type? (module : ModuleSpec) (name : String) : Option TypeSpec :=
  Dictionary.get? module.types name

/-- The direct submodule of a given name. -/
def submodule? (module : ModuleSpec) (name : String) : Option ModuleSpec :=
  Dictionary.get? module.modules name

/-- The submodule that a path of names leads to. -/
def descend? (module : ModuleSpec) : List String → Option ModuleSpec
  | [] => some module
  | name :: rest => (module.submodule? name).bind fun inner => inner.descend? rest

/-- A function of a module with the module's own type that it returns. -/
def resolve (module : ModuleSpec) (function : FunctionSpec) : ResolvedFunction :=
  { spec := function, returnsType := function.returns.bind module.type? }

end ModuleSpec

/-- Modules under their top-level names. -/
abbrev Specs := Dictionary ModuleSpec

end FlowAnalysis
