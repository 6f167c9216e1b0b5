import FlowAnalysis.Analysis.Names
import FlowAnalysis.Json.Read

/-!
# Declared definitions

A string in a program can declare definitions that the program text does not show, as in
`defs: [...]` with a list of names and positions. The list extends to the end of the line, a
backslash before a quote is dropped, and a list that cannot be read declares nothing.
-/

namespace FlowAnalysis

/-- A declared name with the start and end of its span relative to the string. -/
structure Declaration where
  name : String
  start : Nat × Nat
  stop : Nat × Nat

namespace Declaration

/-- The words that introduce a list of declarations. -/
def marker : List Char := "defs: ".toList

/-- The text behind the first occurrence of a word. -/
def behind? (word : List Char) : List Char → Option (List Char)
  | [] => if word.isEmpty then some [] else none
  | character :: rest =>
      if word.isPrefixOf (character :: rest) then some ((character :: rest).drop word.length)
      else behind? word rest

/-- Drops the backslash before each quote. -/
def unescape : List Char → List Char
  | '\\' :: '\x22' :: rest => '\x22' :: unescape rest
  | character :: rest => character :: unescape rest
  | [] => []

/-- Reads a line and a column. -/
def position? : Json → Option (Nat × Nat)
  | .array [line, column] => do return (← line.natural?, ← column.natural?)
  | _ => none

/-- Reads one declaration. -/
def ofJson? (value : Json) : Option Declaration := do
  let members ← value.record? ["name", "pos"]
  let name ← (← Json.required? members "name").text?
  match ← Json.required? members "pos" with
  | .array [start, stop] => return { name, start := ← position? start, stop := ← position? stop }
  | _ => none

/-- A declaration is read for its name and its positions. -/
def scheme : Json.Scheme :=
  .record [("name", .any), ("pos", .any)] false

/-- The declarations that a string makes. -/
def ofText (text : String) : List Declaration :=
  match behind? marker text.toList with
  | none => []
  | some rest =>
      let line := unescape (rest.takeWhile fun character => character != '\n')
      let value := Json.parseFor? (.items scheme) (String.ofList line)
      (value.bind (Json.listOf? ofJson?)).getD []

end Declaration

/-- The definitions that the strings in a statement declare. -/
def declaredDefinitions (statement : Node) : List Reference :=
  statement.walk.flatMap fun node =>
    match node.shape with
    | .literal (.string text) =>
        (Declaration.ofText text).map fun declaration =>
          { kind := .declared
            level := .definition
            name := declaration.name
            location := node.location.relative declaration.start declaration.stop
            owner := statement }
    | _ => []

end FlowAnalysis
