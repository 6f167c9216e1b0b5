import FlowAnalysis.Python.Expression.Grammar

/-!
# Grammar of patterns

A pattern of a `match` statement is read for its form and kept as the expressions that it evaluates,
in order: literals, dotted names, and the keys and classes that it names.
-/

namespace FlowAnalysis

namespace Python

open FlowAnalysis.Python.Parser

/-- The parsers that a pattern calls: for patterns inside it, and for neighbouring texts. -/
structure PatternParsers where
  pattern : Parser (List Expression)
  texts : Parser Expression

namespace PatternParsers

variable (inner : PatternParsers)

/-- A number without a sign. -/
def number : Parser Expression :=
  spanning do
    match ← advance with
    | .integer value => return (⟨.constant (.integer value), ·⟩)
    | .float value => return (⟨.constant (.float value), ·⟩)
    | .imaginary => return (⟨.constant .imaginary, ·⟩)
    | _ => failure

/-- A number, perhaps negative, or a sum or difference of two. -/
def numeric : Parser Expression := do
  let first ← start
  let left ←
    if ← looksAt (.symbol "-") then
      spanning do
        symbol "-"
        let operand ← number
        return (⟨.unary "-" operand, ·⟩)
    else number
  match ← ExpressionParsers.operatorOf ["+", "-"] with
  | some operator =>
      let right ← number
      return ⟨.binary operator left right, ⟨first, ← stop⟩⟩
  | none => return left

/-- A name with attributes. -/
def dotted : Parser Expression := do
  let first ← start
  let base ← spanning do
    let id ← name
    return (⟨.name id .load, ·⟩)
  let attributes ← many (after (.symbol ".") do
    let id ← name
    return (id, ← stop))
  return attributes.foldl (fun value member =>
    ⟨.attribute value member.1, ⟨first, member.2⟩⟩) base

/-- A literal or dotted name that a value is compared with; none if something else comes next. A
name alone is none of these. -/
def constant? : Parser (Option Expression) := do
  match ← peek?, ← peekSecond? with
  | some (.reserved "None"), _ => return some (← literal .null)
  | some (.reserved "True"), _ => return some (← literal (.boolean true))
  | some (.reserved "False"), _ => return some (← literal (.boolean false))
  | some (.integer _), _ | some (.float _), _ | some .imaginary, _ | some (.symbol "-"), _ =>
      return some (← numeric)
  | some (.text _ _ _), _ => return some (← inner.texts)
  | some (.name _), some (.symbol ".") => return some (← dotted)
  | _, _ => return none
where
  literal (value : Constant) : Parser Expression :=
    spanning do
      let _ ← advance
      return (⟨.constant value, ·⟩)

/-- An entry of a pattern for mappings: a key and the pattern for its value. -/
def entry : Parser (List Expression) := do
  match ← inner.constant? with
  | some key =>
      symbol ":"
      return key :: (← inner.pattern)
  | none => failure

/-- The entries of a pattern for mappings, up to the closing brace. A name for the other members
comes last. -/
def entries : Parser (List Expression) := do
  let mapped ← many do
    if (← looksAt (.symbol "**")) || (← looksAt (.symbol "\x7d")) then return none
    else
      let entry ← inner.entry
      if ← looksAt (.symbol "\x7d") then return some entry
      else
        symbol ","
        return some entry
  if ← accept (.symbol "**") then
    let _ ← name
    let _ ← accept (.symbol ",")
  symbol "\x7d"
  return mapped.flatten

/-- The patterns of the attributes of a class: first those by position, then those by name. -/
def attributes : Parser (List Expression) := do
  let items ← closedList (.symbol ")") do
    match ← peek?, ← peekSecond? with
    | some (.name _), some (.symbol "=") =>
        let _ ← name
        symbol "="
        return (true, ← inner.pattern)
    | _, _ => return (false, ← inner.pattern)
  if (items.dropWhile fun item => !item.1).all fun item => item.1 then
    return items.flatMap fun item => item.2
  else failure

/-- A pattern without alternatives. -/
def closed : Parser (List Expression) := do
  match ← inner.constant? with
  | some value =>
      match value.form with
      | .attribute .. =>
          if ← accept (.symbol "(") then return value :: (← inner.attributes) else return [value]
      | _ => return [value]
  | none =>
      match ← peek? with
      | some (.name _) =>
          let value ← dotted
          if ← accept (.symbol "(") then return value :: (← inner.attributes) else return []
      | some (.symbol "*") =>
          symbol "*"
          let _ ← name
          return []
      | some (.symbol "(") =>
          symbol "("
          return (← closedList (.symbol ")") inner.pattern).flatten
      | some (.symbol "[") =>
          symbol "["
          return (← closedList (.symbol "]") inner.pattern).flatten
      | some (.symbol "\x7b") =>
          symbol "\x7b"
          inner.entries
      | _ => failure

/-- A pattern: alternatives, perhaps with a name for the value, which cannot be an underscore. -/
def alternatives : Parser (List Expression) := do
  let first ← inner.closed
  let others ← many (after (.symbol "|") inner.closed)
  if ← accept (.reserved "as") then
    if (← name) = "_" then failure
  return first ++ others.flatten

/-- Patterns inside each other, at most a given number. -/
def upTo (texts : Parser Expression) : Nat → PatternParsers
  | 0 => { pattern := failure, texts }
  | depth + 1 => { pattern := (upTo texts depth).alternatives, texts }

/-- Whether a token can begin a pattern. -/
def begins (token : Token) : Bool :=
  !(token == .symbol ":" || token == .reserved "if")

/-- The patterns of a case, with commas between them. -/
def openSequence : Parser (List Expression) := do
  let (first, rest, _) ← commaList begins inner.pattern
  return first ++ rest.flatten

end PatternParsers

end Python

end FlowAnalysis
