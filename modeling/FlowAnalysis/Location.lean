import FlowAnalysis.Json.Basic

/-!
# Source locations

A location is a span of lines and columns with an optional path. Its key, the path and the span in
one text, identifies a statement throughout the analysis: caches, sets and edges refer to statements
by location key.
-/

namespace FlowAnalysis

/-- A source span; lines count from one and columns from zero. -/
structure Location where
  firstLine : Nat
  firstColumn : Nat
  lastLine : Nat
  lastColumn : Nat
  path : Option String
deriving DecidableEq, Repr, Inhabited

namespace Location

/-- The span without the path, as in `1:0-1:5`. -/
def display (location : Location) : String :=
  toString location.firstLine ++ ":" ++ toString location.firstColumn ++ "-" ++
    toString location.lastLine ++ ":" ++ toString location.lastColumn

/-- The text that identifies a location: its span, after its path if it has one. -/
def key (location : Location) : String :=
  match location.path with
  | some path => path ++ ":" ++ location.display
  | none => location.display

/-- The same span in another file. -/
def withPath (location : Location) (path : String) : Location :=
  { location with path := some path }

/-- The number of machine words; lines are words, and so are columns. -/
def wordCount : Nat := 0x10000000000000000

/-- The line at a distance behind the first line of a location. Addition of words wraps around; a
program built with overflow checks stops where it would. -/
def lineBehind (location : Location) (distance : Nat) : Nat :=
  (location.firstLine + distance) % wordCount

/-- A span given relative to the first line of a location, with columns of its own. -/
def relative (location : Location) (start stop : Nat × Nat) : Location :=
  { firstLine := location.lineBehind start.1
    firstColumn := start.2
    lastLine := location.lineBehind stop.1
    lastColumn := stop.2
    path := location.path }

/-- Whether a location starts strictly before another. -/
def startsBefore (left right : Location) : Bool :=
  left.firstLine < right.firstLine ||
    (left.firstLine = right.firstLine && left.firstColumn < right.firstColumn)

/-- The JSON form; an absent path has no member. -/
def toJson (location : Location) : Json :=
  .object <|
    [("first_line", .natural location.firstLine),
      ("first_column", .natural location.firstColumn),
      ("last_line", .natural location.lastLine),
      ("last_column", .natural location.lastColumn)] ++
    match location.path with
    | some path => [("path", .string path)]
    | none => []

/-- Reads the JSON form; members that are not part of a location are ignored. -/
def ofJson? (value : Json) : Option Location := do
  let members ←
    value.record? ["first_line", "first_column", "last_line", "last_column", "path"]
  let firstLine ← (← Json.required? members "first_line").natural?
  let firstColumn ← (← Json.required? members "first_column").natural?
  let lastLine ← (← Json.required? members "last_line").natural?
  let lastColumn ← (← Json.required? members "last_column").natural?
  let path ← ((← Json.optional? members "path").getD .null).optionalText?
  return { firstLine, firstColumn, lastLine, lastColumn, path }

end Location

end FlowAnalysis
