import FlowAnalysis.Python.Token

/-!
# Parsers

A parser reads tokens from a cursor, which also knows where the last token that was read ended, and
fails without a reason. Productions are spanned by their tokens: from the first one to the last one.
Repetition is bounded by the number of tokens that are left, because every round reads one.
-/

namespace FlowAnalysis

namespace Python

/-- The tokens that are left, and the offset at which the last token that was read ended. -/
structure Cursor where
  lexemes : List Lexeme
  stop : Nat

/-- A parser of productions. -/
abbrev Parser := StateT Cursor Option

namespace Parser

variable {Value Item : Type}

/-- The next token. -/
def peek? : Parser (Option Token) :=
  return (← get).lexemes.head?.map Lexeme.token

/-- The token after the next one. -/
def peekSecond? : Parser (Option Token) :=
  return (← get).lexemes[1]?.map Lexeme.token

/-- Whether a token comes next. -/
def looksAt (token : Token) : Parser Bool :=
  return (← peek?) == some token

/-- The offset at which the next token starts. -/
def start : Parser Nat := do
  let cursor ← get
  return match cursor.lexemes with
  | lexeme :: _ => lexeme.span.start
  | [] => cursor.stop

/-- The offset at which the last token that was read ended. -/
def stop : Parser Nat :=
  return (← get).stop

/-- Reads a token. -/
def advance : Parser Token := do
  match (← get).lexemes with
  | lexeme :: rest =>
      set (Cursor.mk rest lexeme.span.stop)
      return lexeme.token
  | [] => failure

/-- Reads the given token if it comes next. -/
def accept (token : Token) : Parser Bool := do
  if ← looksAt token then
    let _ ← advance
    return true
  else return false

/-- Reads the given token. -/
def expect (token : Token) : Parser Unit := do
  if ← accept token then return () else failure

/-- Reads a reserved word. -/
def reserved (word : String) : Parser Unit :=
  expect (.reserved word)

/-- Reads an operator or delimiter. -/
def symbol (text : String) : Parser Unit :=
  expect (.symbol text)

/-- Reads a name. -/
def name : Parser String := do
  match ← advance with
  | .name id => return id
  | _ => failure

/-- Gives a production the span of the tokens that it reads. -/
def spanning (production : Parser (Span → Value)) : Parser Value := do
  let first ← start
  let build ← production
  return build ⟨first, ← stop⟩

/-- As many items as come, at most a given number of them. -/
def manyUpTo (item : Parser (Option Item)) : Nat → Parser (List Item)
  | 0 => return []
  | count + 1 => do
      match ← item with
      | some value => return value :: (← manyUpTo item count)
      | none => return []

/-- As many items as come. A parser of an item reads nothing if there is none. -/
def many (item : Parser (Option Item)) : Parser (List Item) := do
  manyUpTo item (← get).lexemes.length

/-- An item if a token announces it. -/
def after (token : Token) (item : Parser Item) : Parser (Option Item) := do
  if ← accept token then return some (← item) else return none

/-- An item if the next token can begin one. -/
def whenNext (begins : Token → Bool) (item : Parser Item) : Parser (Option Item) := do
  if (← peek?).any begins then return some (← item) else return none

/-- An item behind a separator. The separator is left alone when the token after it begins no
item. -/
def delimited (separator : Token) (begins : Token → Bool) (item : Parser Item) :
    Parser (Option Item) := do
  if (← looksAt separator) && (← peekSecond?).any begins then
    expect separator
    return some (← item)
  else return none

/-- An item behind a comma. -/
def commaItem (begins : Token → Bool) (item : Parser Item) : Parser (Option Item) :=
  delimited (.symbol ",") begins item

/-- Items with commas between them, and whether a comma ends the list. -/
def commaList (begins : Token → Bool) (item : Parser Item) : Parser (Item × List Item × Bool) := do
  let first ← item
  let rest ← many (commaItem begins item)
  return (first, rest, ← accept (.symbol ","))

/-- Items with commas between them; no comma ends the list. -/
def separated (item : Parser Item) : Parser (List Item) := do
  return (← item) :: (← many (after (.symbol ",") item))

/-- A list that a token closes, with commas between its items and perhaps one at the end. -/
def closedList (closing : Token) (item : Parser Item) : Parser (List Item) := do
  if ← accept closing then return []
  let (first, rest, _) ← commaList (fun token => token != closing) item
  expect closing
  return first :: rest

/-- Runs a parser on a whole list of tokens. -/
def run? (parser : Parser Value) (lexemes : List Lexeme) : Option Value := do
  let (value, cursor) ← StateT.run parser ⟨lexemes, 0⟩
  if cursor.lexemes.isEmpty then return value else none

end Parser

end Python

end FlowAnalysis
