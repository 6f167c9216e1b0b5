import FlowAnalysis.Binary64
import FlowAnalysis.Python.Source

/-!
# Tokens

The words of the language. Reserved words, operators and delimiters are known by their text. The
contents of a text literal are kept as written, to be decoded with its neighbours.
-/

namespace FlowAnalysis

namespace Python

/-- What the letters in front of a text literal say. -/
structure TextKind where
  /-- A backslash is an ordinary character. -/
  raw : Bool := false
  bytes : Bool := false
  /-- The contents hold replacement fields. -/
  formatted : Bool := false
deriving DecidableEq, Repr

/-- The kind that one or two letters stand for. -/
def TextKind.ofLetters? (letters : List Char) : Option TextKind :=
  match letters.map Char.toLower with
  | ['r'] => some { raw := true }
  | ['u'] => some {}
  | ['b'] => some { bytes := true }
  | ['f'] => some { formatted := true }
  | ['r', 'b'] | ['b', 'r'] => some { raw := true, bytes := true }
  | ['r', 'f'] | ['f', 'r'] => some { raw := true, formatted := true }
  | _ => none

/-- A token. -/
inductive Token where
  | name (id : String)
  | reserved (word : String)
  | symbol (text : String)
  | integer (value : Nat)
  | float (value : Binary64)
  | imaginary
  /-- A text literal; its contents, which begin at an offset, are not decoded. -/
  | text (kind : TextKind) (content : List Char) (offset : Nat)
  /-- The end of a logical line. -/
  | newline
  | indent
  | dedent
deriving DecidableEq, Repr

/-- A token with its place. -/
structure Lexeme where
  token : Token
  span : Span
deriving DecidableEq, Repr

namespace Token

/-- The words that are no names. The last three are names as well, depending on their line. -/
def reservedWords : List String :=
  ["False", "None", "True", "and", "as", "assert", "async", "await", "break", "class", "continue",
    "def", "del", "elif", "else", "except", "finally", "for", "from", "global", "if", "import",
    "in", "is", "lambda", "nonlocal", "not", "or", "pass", "raise", "return", "try", "while", "with",
    "yield", "match", "case", "type"]

/-- The operators and delimiters; none comes after its own beginning. -/
def symbols : List String :=
  ["**=", "//=", "<<=", ">>=", "...", "==", "+=", "**", "*=", "//", "/=", "%=", "|=", "^=", "&=",
    "->", "-=", "@=", "!=", ":=", "<<", "<=", ">>", ">=", "=", "+", "*", "/", "%", "|", "^", "&",
    "-", "@", "~", "(", ")", "[", "]", "\x7b", "\x7d", ":", ";", "<", ">", ",", "."]

/-- Whether a token opens a bracket. -/
def opens (token : Token) : Bool :=
  token == symbol "(" || token == symbol "[" || token == symbol "\x7b"

/-- Whether a token closes a bracket. -/
def closes (token : Token) : Bool :=
  token == symbol ")" || token == symbol "]" || token == symbol "\x7d"

end Token

end Python

end FlowAnalysis
