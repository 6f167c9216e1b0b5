import FlowAnalysis.Python.Token.Scan

/-!
# Lines and indentation

`Lexeme.ofText?` turns a text into tokens. The end of a logical line is a token, and so is every
step of the indentation; lines without a token have neither, and a line inside brackets does not end
at its line feed. Indentation is compared by tabs and spaces apart, so that it never depends on the
width of a tab. At last `Lexeme.resolve` decides which of the words `match`, `case` and `type` are
names.
-/

namespace FlowAnalysis

namespace Python

/-- The blanks in front of a line: tabs and then spaces. -/
structure Indentation where
  tabs : Nat
  spaces : Nat
deriving DecidableEq, Repr

namespace Indentation

/-- How two indentations compare, unless that depends on the width of a tab. -/
def compare? (left right : Indentation) : Option Ordering :=
  match compare left.tabs right.tabs with
  | .lt => if left.spaces ≤ right.spaces then some .lt else none
  | .gt => if right.spaces ≤ left.spaces then some .gt else none
  | .eq => some (compare left.spaces right.spaces)

/-- Reads the blanks in front of the next line that holds a token; `comment` says whether the
characters are those of a comment. A tab after a space is an error. -/
def read? : Indentation → Bool → List Mark → Option (Indentation × List Mark)
  | _, _, [] => some (⟨0, 0⟩, [])
  | indentation, comment, mark :: rest =>
      if mark.char = '\n' then read? ⟨0, 0⟩ false rest
      else if comment then read? ⟨0, 0⟩ true rest
      else if mark.char = '#' then read? ⟨0, 0⟩ true rest
      else if mark.char = '\x0c' then read? ⟨0, 0⟩ false rest
      else if mark.char = ' ' then
        read? { indentation with spaces := indentation.spaces + 1 } false rest
      else if mark.char = '\t' then
        if indentation.spaces = 0 then
          read? { indentation with tabs := indentation.tabs + 1 } false rest
        else none
      else some (indentation, mark :: rest)

/-- Leaves the blocks that are indented more than a line; gives their number and the blocks around
the line. The line has to fit one of them. -/
def leave? (indentation : Indentation) : List Indentation → Option (Nat × List Indentation)
  | [] => if indentation.compare? ⟨0, 0⟩ = some .eq then some (0, []) else none
  | block :: outer =>
      match indentation.compare? block with
      | some .eq => some (0, block :: outer)
      | some .lt => (leave? indentation outer).map fun left => (left.1 + 1, left.2)
      | _ => none

end Indentation

/-- Where the reading of tokens stands. -/
structure Layout where
  /-- The number of open brackets. -/
  nesting : Nat := 0
  /-- The indentations of the open blocks, the innermost first. -/
  blocks : List Indentation := []
  /-- Whether no token of the line has been read. -/
  atLineStart : Bool := true
deriving Repr

namespace Lexeme

/-- The offset of the next character, or of the end. -/
def nextOffset (stop : Nat) (marks : List Mark) : Nat :=
  match marks with
  | mark :: _ => mark.offset
  | [] => stop

/-- A token without text. -/
def empty (token : Token) (offset : Nat) : Lexeme :=
  ⟨token, ⟨offset, offset⟩⟩

/-- Begins the next line that holds a token: a deeper one opens a block, a less deep one closes
some. -/
def startLine? (stop : Nat) (layout : Layout) (marks : List Mark) :
    Option (List Lexeme × Layout × List Mark) := do
  let (indentation, rest) ← Indentation.read? ⟨0, 0⟩ false marks
  let offset := nextOffset stop rest
  let layout := { layout with atLineStart := rest.isEmpty }
  match ← indentation.compare? (layout.blocks.headD ⟨0, 0⟩) with
  | .eq => return ([], layout, rest)
  | .gt =>
      return ([empty .indent offset], { layout with blocks := indentation :: layout.blocks }, rest)
  | .lt =>
      let (left, blocks) ← indentation.leave? layout.blocks
      return (List.replicate left (empty .dedent offset), { layout with blocks }, rest)

/-- The tokens at the end of the text: the line ends, and so does every block. -/
def finish (stop : Nat) (layout : Layout) : List Lexeme :=
  (if layout.atLineStart then [] else [empty .newline stop]) ++
    layout.blocks.map fun _ => empty .dedent stop

/-- The tokens from some place on. The count bounds the characters that are left. -/
def read? (stop : Nat) : Nat → Layout → List Mark → Option (List Lexeme)
  | 0, _, _ => none
  | count + 1, layout, marks => do
      let (margin, layout, marks) ←
        if layout.atLineStart then startLine? stop layout marks else some ([], layout, marks)
      match marks with
      | [] => if layout.nesting = 0 then return margin ++ finish stop layout else none
      | mark :: rest =>
          if mark.char = '\n' then
            if layout.nesting = 0 then
              let line ← read? stop count { layout with atLineStart := true } rest
              return margin ++ ⟨.newline, ⟨mark.offset, nextOffset stop rest⟩⟩ :: line
            else return margin ++ (← read? stop count layout rest)
          else if mark.char = ' ' ∨ mark.char = '\t' ∨ mark.char = '\x0c' then
            return margin ++ (← read? stop count layout rest)
          else if mark.char = '#' then
            return margin ++
              (← read? stop count layout (rest.dropWhile fun mark => mark.char ≠ '\n'))
          else if mark.char = '\\' then
            match rest with
            | ending :: next :: rest =>
                if ending.char = '\n' then
                  return margin ++ (← read? stop count layout (next :: rest))
                else none
            | _ => none
          else
            let (token, rest) ← Token.scan? (mark :: rest)
            if token.closes ∧ layout.nesting = 0 then none
            else
              let nesting :=
                if token.opens then layout.nesting + 1
                else if token.closes then layout.nesting - 1
                else layout.nesting
              let later ← read? stop count { layout with nesting } rest
              return margin ++ ⟨token, ⟨mark.offset, nextOffset stop rest⟩⟩ :: later

/-! ### Words that are names on some lines -/

/-- Whether the rest of a line has a colon outside brackets that ends no parameter list and does not
come first, as a line has that begins a `match` statement or a case of one. -/
def hasHeaderColon (nesting : Nat) (first ofLambda : Bool) : List Lexeme → Bool
  | [] => false
  | lexeme :: rest =>
      let token := lexeme.token
      if token = .newline then false
      else if token = .reserved "lambda" ∧ nesting = 0 then hasHeaderColon nesting false true rest
      else if token = .symbol ":" ∧ nesting = 0 then
        if ofLambda then hasHeaderColon nesting false false rest
        else if first then hasHeaderColon nesting false false rest
        else true
      else if token.opens then hasHeaderColon (nesting + 1) false ofLambda rest
      else if token.closes then hasHeaderColon (nesting - 1) false ofLambda rest
      else hasHeaderColon nesting false ofLambda rest

/-- Whether an equals sign comes next but for what is in brackets. -/
def reachesEquals (nesting : Nat) : List Lexeme → Bool
  | [] => false
  | lexeme :: rest =>
      let token := lexeme.token
      if token = .newline then false
      else if token = .symbol "=" ∧ nesting = 0 then true
      else if token.opens then reachesEquals (nesting + 1) rest
      else if token.closes then reachesEquals (nesting - 1) rest
      else if nesting = 0 then false
      else reachesEquals nesting rest

/-- Whether the rest of a line goes on as the definition of a type alias does. -/
def definesAlias : List Lexeme → Bool
  | ⟨.name _, _⟩ :: rest => reachesEquals 0 rest
  | ⟨.reserved word, _⟩ :: rest =>
      (word == "type" || word == "match" || word == "case") && reachesEquals 0 rest
  | _ => false

/-- Makes the words `match`, `case` and `type` names, except where they begin a line of their
kind. -/
def resolve : Bool → List Lexeme → List Lexeme
  | _, [] => []
  | atLineStart, lexeme :: rest =>
      let token :=
        match lexeme.token with
        | .reserved word =>
            if word = "match" ∨ word = "case" then
              if atLineStart && hasHeaderColon 0 true false rest then lexeme.token else .name word
            else if word = "type" then
              if atLineStart && definesAlias rest then lexeme.token else .name word
            else lexeme.token
        | token => token
      let atLineStart := token == .newline || token == .indent || token == .dedent
      { lexeme with token } :: resolve atLineStart rest

/-- The tokens of a module, whose text begins at an offset, or of an expression. A byte order mark
in front is skipped. -/
def ofText? (asModule : Bool) (start : Nat) (text : List Char) : Option (List Lexeme) := do
  let marks := Mark.ofText start text
  let marks := if marks.head?.any fun mark => mark.char = '\ufeff' then marks.tail else marks
  let lexemes ← read? (start + byteLength text) (marks.length + 1) {} marks
  return resolve asModule lexemes

end Lexeme

end Python

end FlowAnalysis
