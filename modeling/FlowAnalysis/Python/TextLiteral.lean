import FlowAnalysis.Python.Expression
import FlowAnalysis.Python.Token.Scan
import FlowAnalysis.Text
import FlowAnalysis.Text.CharacterName

/-!
# Text literals

What the contents of a text literal stand for. A literal without fields is decoded by its escapes;
one with fields is a list of parts, texts and replacement fields. Neighbouring literals are one
value that has the span of all of them. A field is scanned for its end before its expression is
read, with brackets and quoted texts inside it, and its format may hold fields of its own, whose
formats hold none.
-/

namespace FlowAnalysis

namespace Python

/-- A text literal as written: its kind and its contents, which begin at an offset. -/
structure TextLiteral where
  kind : TextKind
  content : List Char
  offset : Nat

namespace TextLiteral

/-- A part of a literal with fields. -/
inductive Part where
  | text (content : List Char)
  | field (value : Expression) (format : List Part)

/-- The contents that are left, with the offset at which they begin. -/
structure Contents where
  rest : List Char
  offset : Nat

/-- A reader of the contents of a literal. -/
abbrev Reader := StateT Contents Option

/-- The next character. -/
def peek? : Reader (Option Char) :=
  return (← get).rest.head?

/-- Reads a character. -/
def next : Reader Char := do
  match ← get with
  | ⟨character :: rest, offset⟩ =>
      set (Contents.mk rest (offset + character.utf8Size))
      return character
  | ⟨[], _⟩ => failure

/-- A bound on the rounds of a loop over the contents that are left. -/
def rounds : Reader Nat :=
  return (← get).rest.length + 1

/-! ### Escapes -/

/-- A character given by a number of hexadecimal digits. A surrogate is replaced. -/
def hexadecimal (value : Nat) : Nat → Reader (List Char)
  | 0 =>
      if 0xd800 ≤ value ∧ value ≤ 0xdfff then return ['\ufffd']
      else if value < 0x110000 then return [Char.ofNat value]
      else failure
  | count + 1 => do
      match Token.digitValue? (← next) with
      | some digit => hexadecimal (value * 16 + digit) count
      | none => failure

/-- A character given by octal digits, of which a number may still come. -/
def octal (value : Nat) : Nat → Reader (List Char)
  | 0 => return [Char.ofNat value]
  | count + 1 => do
      match ← peek? with
      | some digit =>
          if Token.isDigitOf 8 digit then
            let _ ← next
            octal (value * 8 + (digit.toNat - 48)) count
          else return [Char.ofNat value]
      | none => return [Char.ofNat value]

/-- Reads up to a closing brace; the characters in front of it. -/
def braced : Nat → Reader (List Char)
  | 0 => failure
  | count + 1 => do
      let character ← next
      if character = '\x7d' then return []
      else return character :: (← braced count)

/-- The longest name that is looked up, in bytes. -/
def nameLimit : Nat := 88

/-- A character given by its name in braces. -/
def namedCharacter : Reader (List Char) := do
  if (← next) = '\x7b' then
    let name := String.ofList (← braced (← rounds))
    if name.utf8ByteSize ≤ nameLimit then
      match Text.named? name with
      | some character => return [character]
      | none => failure
    else failure
  else failure

/-- What an escape stands for, from behind its backslash. An unknown escape stands for itself. -/
def escape (kind : TextKind) : Reader (List Char) := do
  match ← next with
  | '\\' => return ['\\']
  | '\x27' => return ['\x27']
  | '\x22' => return ['\x22']
  | 'a' => return ['\x07']
  | 'b' => return ['\x08']
  | 'f' => return ['\x0c']
  | 'n' => return ['\n']
  | 'r' => return ['\r']
  | 't' => return ['\t']
  | 'v' => return ['\x0b']
  | '\n' => return []
  | 'x' => hexadecimal 0 2
  | character =>
      if Token.isDigitOf 8 character then octal (character.toNat - 48) 2
      else if kind.bytes then
        if character.toNat < 0x80 then return ['\\', character] else failure
      else if character = 'u' then hexadecimal 0 4
      else if character = 'U' then hexadecimal 0 8
      else if character = 'N' then namedCharacter
      else return ['\\', character]

/-- A character of a literal without fields, or what an escape stands for. -/
def plainItem (kind : TextKind) : Reader (List Char) := do
  let character ← next
  if character = '\\' ∧ ¬kind.raw then escape kind
  else if kind.bytes ∧ 0x80 ≤ character.toNat then failure
  else return [character]

/-- The text of a literal without fields. -/
def plain (kind : TextKind) : Nat → Reader (List Char)
  | 0 => return []
  | count + 1 => do
      match ← peek? with
      | some _ => return (← plainItem kind) ++ (← plain kind count)
      | none => return []

/-! ### Fields -/

/-- How far a field has been read. -/
structure Field where
  /-- The text of the expression, the last character first. -/
  expression : List Char := []
  /-- The open brackets, the innermost first. -/
  brackets : List Char := []
  /-- Whether the field shows its own text. -/
  documented : Bool := false
  /-- The blanks behind the equals sign of such a field. -/
  blanks : List Char := []
  format : List Part := []

/-- The bracket that a bracket closes. -/
def opening? (closing : Char) : Option Char :=
  match closing with
  | ')' => some '('
  | ']' => some '['
  | '\x7d' => some '\x7b'
  | _ => none

/-- Reads up to a quote; the characters in the order of the text. -/
def quoted (quote : Char) : Nat → Reader (List Char)
  | 0 => failure
  | count + 1 => do
      let character ← next
      if character = quote then return [character]
      else return character :: (← quoted quote count)

/-- Reads the conversion of a field, from behind its exclamation mark. -/
def conversion : Reader Unit := do
  let letter ← next
  if letter = 's' ∨ letter = 'a' ∨ letter = 'r' then
    match ← peek? with
    | some '\x7d' | some ':' => return ()
    | _ => failure
  else failure

/-- The parts that a finished field stands for. One that shows its own text is that text and then
the value. -/
def finish (readValue : List Char → Option Expression) (field : Field) : Option (List Part) := do
  let text := field.expression.reverse
  if text.all Text.isBlank then none
  else
    let value ← readValue text
    let shown := if field.documented then [Part.text (text ++ '=' :: field.blanks)] else []
    return shown ++ [.field value field.format]

/-- Reads the rest of a field, with a reader for its format. -/
def field (readValue : List Char → Option Expression) (format : Reader (List Part)) :
    Nat → Field → Reader (List Part)
  | 0, _ => failure
  | count + 1, state => do
      let character ← next
      let following ← peek?
      let push (text : List Char) : Field := { state with expression := text ++ state.expression }
      if following = some '=' ∧ ['!', '=', '>', '<'].contains character then
        let _ ← next
        field readValue format count (push ['=', character])
      else if character = '!' ∧ state.brackets.isEmpty then
        if state.expression.all Text.isBlank then failure
        else
          conversion
          field readValue format count state
      else if character = '=' ∧ state.brackets.isEmpty then
        field readValue format count { state with documented := true }
      else if character = ':' ∧ state.brackets.isEmpty then
        field readValue format count { state with format := ← format }
      else if character = '(' ∨ character = '[' ∨ character = '\x7b' then
        field readValue format count
          { push [character] with brackets := character :: state.brackets }
      else if character = '\x7d' ∧ state.brackets.isEmpty then
        match finish readValue state with
        | some parts => return parts
        | none => failure
      else if (opening? character).isSome then
        if state.brackets.head? = opening? character then
          field readValue format count { push [character] with brackets := state.brackets.tail }
        else failure
      else if Token.isQuote character then
        let text ← quoted character (← rounds)
        field readValue format count (push (character :: text).reverse)
      else if character = ' ' ∧ state.documented then
        field readValue format count { state with blanks := state.blanks ++ [character] }
      else if character = '\\' ∨ state.documented then failure
      else field readValue format count (push [character])

/-- Reads a field from behind its opening brace. The reader of expressions takes the offset of the
brace as well. -/
def openField (readValue : Nat → List Char → Option Expression) (format : Reader (List Part)) :
    Reader (List Part) := do
  let contents ← get
  field (readValue (contents.offset - 1)) format (contents.rest.length + 1) {}

/-- The parts of a literal with fields, or of a field inside a format, which ends at a brace. -/
def parts (kind : TextKind) (insideFormat : Bool) (openField : Reader (List Part)) :
    Nat → Reader (List Part)
  | 0 => return []
  | count + 1 => do
      match ← peek? with
      | none => return []
      | some '\x7b' =>
          let _ ← next
          if !insideFormat && (← peek?) == some '\x7b' then
            let brace ← next
            return .text [brace] :: (← parts kind insideFormat openField count)
          else
            let field ← openField
            return field ++ (← parts kind insideFormat openField count)
      | some '\x7d' =>
          if insideFormat then return []
          else
            let _ ← next
            let brace ← next
            if brace = '\x7d' then
              return .text [brace] :: (← parts kind insideFormat openField count)
            else failure
      | some _ =>
          let text ← plainItem kind
          return .text text :: (← parts kind insideFormat openField count)

/-- The parts of the format of a field. -/
def formatParts (fields : Reader (List Part)) : Nat → Reader (List Part)
  | 0 => return []
  | count + 1 => do
      match ← peek? with
      | none | some '\x7d' => return []
      | some '\x7b' => return (← fields) ++ (← formatParts fields count)
      | some _ =>
          let character ← next
          return .text [character] :: (← formatParts fields count)

/-- The parts of a literal with fields, with a reader for the expression of a field. -/
def formatted (readValue : Nat → List Char → Option Expression) (kind : TextKind) :
    Reader (List Part) := do
  let noFields : Reader (List Part) := failure
  let inner : Reader (List Part) := do
    let openInner := openField readValue (do formatParts noFields (← rounds))
    parts kind true openInner (← rounds)
  let openOuter := openField readValue (do formatParts inner (← rounds))
  parts kind false openOuter (← rounds)

/-! ### Values -/

/-- Whether a part is a text without characters. -/
def Part.isEmptyText : Part → Bool
  | .text [] => true
  | _ => false

/-- The parts of a literal. One without fields is one text, even if that is empty. -/
def parts? (readValue : Nat → List Char → Option Expression) (literal : TextLiteral) :
    Option (List Part) :=
  let contents : Contents := ⟨literal.content, literal.offset⟩
  if literal.kind.formatted then do
    let parts ← (formatted readValue literal.kind).run' contents
    return parts.filter fun part => !part.isEmptyText
  else do
    let text ← (plain literal.kind (literal.content.length + 1)).run' contents
    return [.text text]

/-- The parts in which no two texts are neighbours. -/
def merge : List Part → List Part
  | [] => []
  | .text content :: rest =>
      match merge rest with
      | .text more :: rest => .text (content ++ more) :: rest
      | rest => .text content :: rest
  | .field value format :: rest => .field value format :: merge rest

mutual

/-- The expressions that parts stand for, with the span of the whole literal. -/
def expressions (span : Span) : List Part → List Expression
  | [] => []
  | part :: rest => expression span part :: expressions span rest

/-- The expression that a part stands for. -/
def expression (span : Span) : Part → Expression
  | .text content => ⟨.constant (.text (String.ofList content)), span⟩
  | .field value format => ⟨.replacement value (expressions span format), span⟩

end

/-- The text of parts without fields. -/
def textOf : List Part → List Char
  | [] => []
  | .text content :: rest => content ++ textOf rest
  | .field _ _ :: rest => textOf rest

/-- The value of neighbouring literals. Bytes do not mix with text. -/
def value? (readValue : Nat → List Char → Option Expression) (literals : List TextLiteral)
    (span : Span) : Option Expression := do
  let parts := (← literals.mapM (parts? readValue)).flatten
  if literals.all fun literal => literal.kind.bytes then
    return ⟨.constant (.bytes ((textOf parts).map fun character =>
      UInt8.ofNat character.toNat)), span⟩
  else if literals.any fun literal => literal.kind.bytes then none
  else if literals.any fun literal => literal.kind.formatted then
    return ⟨.joined (expressions span (merge parts)), span⟩
  else return ⟨.constant (.text (String.ofList (textOf parts))), span⟩

end TextLiteral

end Python

end FlowAnalysis
