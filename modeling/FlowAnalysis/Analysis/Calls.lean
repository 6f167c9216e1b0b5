import FlowAnalysis.Analysis.Names
import FlowAnalysis.Spec.SymbolTable

/-!
# Effects of calls

A call whose callee has a specification updates what the specification says. A call without one is
taken to update all of its arguments and its receiver, except that methods of literals have no
effect that could be seen.
-/

namespace FlowAnalysis

/-- What is known about the callee of a call. -/
inductive Callee where
  /-- The call has no effect on variables. -/
  | harmless
  | known (spec : FunctionSpec)
  | unknown

namespace Callee

/-- The callee that may or may not have a specification. -/
def ofSpec? : Option FunctionSpec → Callee
  | some spec => known spec
  | none => unknown

/-- The type of a variable according to the first definition in the running state that knows it. -/
def inferredType? (running : RefSet) (name : String) : Option TypeSpec :=
  (running.toList.filter fun reference => reference.name == name).findSome? Reference.inferredType

/-- Finds out what an expression that is called stands for: a known function, a function of a known
module, or a method of a variable with a known type. -/
def resolve (symbols : SymbolTable) (running : RefSet) (func : Node) : Callee :=
  match func.shape with
  | .name id => ofSpec? ((symbols.lookupFunction? id).map ResolvedFunction.spec)
  | .dot value method =>
      match value.shape with
      | .literal _ => harmless
      | .name id =>
          match symbols.module? id with
          | some _ => ofSpec? ((symbols.lookupModuleFunction? id method).map ResolvedFunction.spec)
          | none => ofSpec? ((inferredType? running id).bind fun type => type.method? method)
      | _ => unknown
  | _ => unknown

end Callee

/-- The receiver of a method call. -/
def receiver? (func : Node) : Option Node :=
  match func.shape with
  | .dot value _ => some value
  | _ => none

/-- The variable that a call mutates at a position, if what stands there is a bare name. -/
def mutatedAt? (func : Node) (args : List (Argument Node)) : Nat → Option String
  | 0 => (receiver? func).bind Node.nameId?
  | index + 1 => args[index]?.bind fun argument => argument.actual.nameId?

/-- The variables that a call mutates. -/
def mutatedVariables (symbols : SymbolTable) (running : RefSet) (func : Node)
    (args : List (Argument Node)) : List String :=
  match Callee.resolve symbols running func with
  | .harmless => []
  | .known spec => spec.positions.filterMap (mutatedAt? func args)
  | .unknown =>
      (args.filterMap fun argument => rootVariable? argument.actual) ++
        ((receiver? func).bind rootVariable?).toList

/-- The updates that the calls in a statement make, nested scopes left out. -/
def callUpdates (symbols : SymbolTable) (running : RefSet) (statement : Node) : List Reference :=
  statement.walkScope.flatMap fun node =>
    match node.shape with
    | .call func args =>
        (mutatedVariables symbols running func args).map fun name =>
          { Reference.atNode .update name node statement with kind := .mutation }
    | _ => []

end FlowAnalysis
