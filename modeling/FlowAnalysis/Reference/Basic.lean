import FlowAnalysis.KeyedSet
import FlowAnalysis.Spec.Basic
import FlowAnalysis.Tree.Node

/-!
# References

A reference is one occurrence of a name in a statement: a definition binds the name afresh, an
update mutates what it is bound to, and a use reads it. References with the same name, level and
location are the same member of a set.
-/

namespace FlowAnalysis

/-- How a reference touches its name. -/
inductive Level where
  /-- A fresh binding. -/
  | definition
  /-- A mutation of what the name is bound to. -/
  | update
  /-- A read. -/
  | use
deriving DecidableEq, Repr

namespace Level

/-- All levels, in the order in which they are reported. -/
def all : List Level :=
  [definition, update, use]

/-- The name of a level in reports and keys. -/
def label : Level → String
  | definition => "DEFINITION"
  | update => "UPDATE"
  | use => "USE"

/-- The levels of a statement's references that flow into a level of the running state: a use needs
definitions and updates, an update needs definitions. -/
def generatedBy : Level → List Level
  | definition => []
  | update => [definition]
  | use => [update, definition]

/-- Whether a new reference at one level ends the effect of an earlier one of the same name. -/
def kills (level earlier : Level) : Bool :=
  level != use && earlier != use

end Level

/-- What sort of thing a name refers to. -/
inductive SymbolKind where
  | plain
  | classType
  | function
  | imported
  /-- A mutation made by a call. -/
  | mutation
  /-- A definition that a text in the program declares. -/
  | declared
deriving DecidableEq, Repr

namespace SymbolKind

/-- All kinds. -/
def all : List SymbolKind :=
  [plain, classType, function, imported, mutation, declared]

/-- The name of a kind in reports. -/
def label : SymbolKind → String
  | plain => "variable"
  | classType => "class"
  | function => "function"
  | imported => "import"
  | mutation => "mutation"
  | declared => "magic"

end SymbolKind

/-- One occurrence of a name. -/
structure Reference where
  kind : SymbolKind
  level : Level
  name : String
  location : Location
  /-- The statement that the occurrence belongs to. -/
  owner : Node
  /-- The type of the value, where it is known. -/
  inferredType : Option TypeSpec := none

namespace Reference

/-- The text that identifies a reference. -/
def key (reference : Reference) : String :=
  reference.name ++ ":" ++ reference.level.label ++ "@" ++ reference.location.key

instance : Keyed Reference := ⟨key⟩

/-- The line that reports a reference. -/
def display (reference : Reference) : String :=
  reference.level.label ++ " " ++ reference.name ++ " @ " ++ reference.location.display

/-- The record that reports a reference. -/
def toJson (reference : Reference) : Json :=
  .object
    [("kind", .string reference.kind.label), ("level", .string reference.level.label),
      ("name", .string reference.name), ("location", reference.location.toJson)]

/-- The same occurrence, attributed to another statement. -/
def ownedBy (reference : Reference) (statement : Node) : Reference :=
  { reference with owner := statement }

end Reference

/-- References in insertion order, one for each name, level and location. -/
abbrev RefSet := KeyedSet Reference

end FlowAnalysis
