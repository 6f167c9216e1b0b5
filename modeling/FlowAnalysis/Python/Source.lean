import FlowAnalysis.Location

/-!
# Source text

A source is a text with an optional path. Offsets count its bytes in UTF-8, and a span is a stretch
between two offsets. `Source.location` turns a span into lines and columns; a line ends after a line
feed, and columns are bytes as well. `Source.wordLocation?` finds a word in front of a position.
-/

namespace FlowAnalysis

namespace Python

/-- A stretch of a source, from one byte offset up to another. -/
structure Span where
  start : Nat
  stop : Nat
deriving DecidableEq, Repr

/-- A character of a source with its byte offset. -/
structure Mark where
  char : Char
  offset : Nat
deriving Repr

/-- The characters of a text that begins at an offset. A carriage return, alone or before a line
feed, is one line feed. -/
def Mark.ofText : Nat → List Char → List Mark
  | _, [] => []
  | offset, '\r' :: '\n' :: rest => ⟨'\n', offset⟩ :: ofText (offset + 2) rest
  | offset, character :: rest =>
      ⟨if character = '\r' then '\n' else character, offset⟩ ::
        ofText (offset + character.utf8Size) rest

/-- The number of bytes of a text. -/
def byteLength (text : List Char) : Nat :=
  text.foldl (fun length character => length + character.utf8Size) 0

/-- The offsets of the lines that begin inside a text, which itself begins at an offset. -/
def lineStartsFrom : Nat → List Char → List Nat
  | _, [] => []
  | offset, character :: rest =>
      let next := offset + character.utf8Size
      if character = '\n' then next :: lineStartsFrom next rest else lineStartsFrom next rest

/-- A program text. -/
structure Source where
  text : List Char
  path : Option String
  /-- The offset of the first byte of each line. -/
  lineStarts : List Nat := 0 :: lineStartsFrom 0 text
  lineStarts_eq : lineStarts = 0 :: lineStartsFrom 0 text := by rfl

namespace Source

/-- The line, counted from one, and the column of an offset. -/
def position (source : Source) (offset : Nat) : Nat × Nat :=
  let starts := source.lineStarts.takeWhile (· ≤ offset)
  (max starts.length 1, offset - starts.getLastD 0)

/-- The lines and columns of a span. -/
def location (source : Source) (span : Span) : Location :=
  let first := source.position span.start
  let last := source.position span.stop
  { firstLine := first.1
    firstColumn := first.2
    lastLine := last.1
    lastColumn := last.2
    path := source.path }

/-- The span of the whole text. -/
def span (source : Source) : Span :=
  ⟨0, byteLength source.text⟩

/-- The offset at which a location starts, zero if there is no such line. -/
def offset (source : Source) (location : Location) : Nat :=
  match source.lineStarts[location.firstLine - 1]? with
  | some start => start + location.firstColumn
  | none => 0

end Source

/-- The first bytes of a text, unless a character would be cut. -/
def leading? : Nat → List Char → Option (List Char)
  | 0, _ => some []
  | _ + 1, [] => none
  | count + 1, character :: rest =>
      if character.utf8Size ≤ count + 1 then
        (leading? (count + 1 - character.utf8Size) rest).map (character :: ·)
      else none
termination_by _ text => text.length

/-- The offset of the last occurrence of a word in a text that begins at an offset. -/
def lastOccurrence? (word : List Char) : Nat → List Char → Option Nat
  | _, [] => none
  | offset, character :: rest =>
      match lastOccurrence? word (offset + character.utf8Size) rest with
      | some found => some found
      | none => if word.isPrefixOf (character :: rest) then some offset else none

namespace Source

/-- The location of the last occurrence of a word before the start of a location. -/
def wordLocation? (source : Source) (word : String) (before : Location) : Option Location := do
  let text ← leading? (source.offset before) source.text
  let start ← lastOccurrence? word.toList 0 text
  return source.location ⟨start, start + word.utf8ByteSize⟩

end Source

end Python

end FlowAnalysis
