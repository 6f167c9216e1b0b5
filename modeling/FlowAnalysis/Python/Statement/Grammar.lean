import FlowAnalysis.Python.Statement
import FlowAnalysis.Python.Statement.Pattern

/-!
# Grammar of statements

A line is one compound statement or simple statements with semicolons between them. A compound
statement ends where the last statement inside it ends; decorators stand before its span.
`Statement.ofText?` reads a module.
-/

namespace FlowAnalysis

namespace Python

open FlowAnalysis.Python.Parser

/-- The parsers that a statement calls: for what is inside it, and for a block of statements. -/
structure StatementParsers where
  expressions : ExpressionParsers
  patterns : PatternParsers
  block : Parser (List Statement)

namespace StatementParsers

variable (inner : StatementParsers)

/-! ### Simple statements -/

/-- The operators that assign the result to their first operand. -/
def augmentedOperators : List (String × String) :=
  [("+=", "+"), ("-=", "-"), ("*=", "*"), ("@=", "@"), ("/=", "/"), ("%=", "%"), ("&=", "&"),
    ("|=", "|"), ("^=", "^"), ("<<=", "<<"), (">>=", ">>"), ("**=", "**"), ("//=", "//")]

/-- What may stand behind an equals sign. -/
def assignedValue : Parser Expression := do
  if ← looksAt (.reserved "yield") then inner.expressions.yieldTest else inner.expressions.testList

/-- An expression as a statement, or an assignment. -/
def assignment : Parser (Span → Statement) := do
  let first ← start
  let head ← inner.expressions.testOrStar
  if !head.isStarred && (← looksAt (.symbol ":")) then
    symbol ":"
    let typeHint ← inner.expressions.test
    let value ← after (.symbol "=") inner.assignedValue
    return (⟨.annotate (head.withAccess .store) typeHint value, ·⟩)
  else
    let rest ← many (commaItem Token.beginsElement inner.expressions.testOrStar)
    let trailing ← accept (.symbol ",")
    let left := tupleOrSingle (head, rest, trailing) ⟨first, ← stop⟩
    match ← ExpressionParsers.operatorOf (augmentedOperators.map Prod.fst) with
    | some written =>
        let value ← inner.assignedValue
        let operator := (augmentedOperators.lookup written).getD written
        return (⟨.augment operator (left.withAccess .store) value, ·⟩)
    | none =>
        let values ← many (after (.symbol "=") inner.assignedValue)
        match values.getLast? with
        | none => return (⟨.expression left, ·⟩)
        | some value =>
            let targets := (left :: values.dropLast).map (Expression.withAccess .store)
            return (⟨.assign targets value, ·⟩)

/-- A name with the names of its submodules. -/
def moduleName : Parser String := do
  let first ← name
  let rest ← many (after (.symbol ".") name)
  return rest.foldl (fun path segment => path ++ "." ++ segment) first

/-- What is imported, perhaps under another name. -/
def importName (path : Parser String) : Parser ImportName := do
  return { path := ← path, boundAs := ← after (.reserved "as") name }

/-- The dots in front of a relative path. -/
def relativeDot : Parser (Option Unit) := do
  if ← accept (.symbol ".") then return some ()
  else if ← accept (.symbol "...") then return some ()
  else return none

/-- The members that are imported: some, or all of them. -/
def importedMembers : Parser (List ImportName) := do
  if ← accept (.symbol "*") then return [{ path := "*", boundAs := none }]
  else if ← accept (.symbol "(") then
    let names ← closedList (.symbol ")") (importName name)
    if names.isEmpty then failure else return names
  else separated (importName name)

/-- An import of members of a module. -/
def importMembers : Parser (Span → Statement) := do
  let dots ← many relativeDot
  let base ← if dots.isEmpty then some <$> moduleName else
    whenNext (fun | .name _ => true | _ => false) moduleName
  reserved "import"
  let names ← importedMembers
  return (⟨.importFrom (base.getD "") names, ·⟩)

/-- A parameter of a type. -/
def typeParameter : Parser Unit := do
  if ← accept (.symbol "*") then
    let _ ← name
  else if ← accept (.symbol "**") then
    let _ ← name
  else
    let _ ← name
    let _ ← after (.symbol ":") inner.expressions.test

/-- The parameters of a type, if there are any. -/
def typeParameters : Parser Unit := do
  if ← accept (.symbol "[") then
    if (← closedList (.symbol "]") inner.typeParameter).isEmpty then failure

/-- A statement that a reserved word begins, from behind the word; none if the word begins no such
statement. -/
def afterWord? (word : String) : Option (Parser (Span → Statement)) :=
  match word with
  | "pass" => some do return (⟨.pass, ·⟩)
  | "break" => some do return (⟨.breakLoop, ·⟩)
  | "continue" => some do return (⟨.continueLoop, ·⟩)
  | "del" => some do
      let (first, rest, _) ← inner.expressions.targets
      return (⟨.delete ((first :: rest).map (Expression.withAccess .delete)), ·⟩)
  | "return" => some do
      let value ← whenNext Token.beginsElement inner.expressions.testList
      return (⟨.returnValue value, ·⟩)
  | "raise" => some do
      match ← whenNext Token.beginsTest inner.expressions.test with
      | none => return (⟨.raiseError none none, ·⟩)
      | some error =>
          let cause ← after (.reserved "from") inner.expressions.test
          return (⟨.raiseError (some error) cause, ·⟩)
  | "import" => some do
      let names ← separated (importName moduleName)
      return (⟨.importModules names, ·⟩)
  | "from" => some importMembers
  | "global" => some do
      let names ← separated name
      return (⟨.globalNames names, ·⟩)
  | "nonlocal" => some do
      let names ← separated name
      return (⟨.nonlocalNames names, ·⟩)
  | "assert" => some do
      let test ← inner.expressions.test
      let message ← after (.symbol ",") inner.expressions.test
      return (⟨.assertion test message, ·⟩)
  | "type" => some do
      let id ← name
      inner.typeParameters
      symbol "="
      let value ← inner.expressions.test
      return (⟨.typeAlias id value, ·⟩)
  | _ => none

/-- A simple statement. -/
def simple : Parser Statement :=
  spanning do
    match ← peek? with
    | some (.reserved "yield") =>
        let value ← inner.expressions.yieldTest
        return (⟨.expression value, ·⟩)
    | some (.reserved word) =>
        match inner.afterWord? word with
        | some rest =>
            reserved word
            rest
        | none => inner.assignment
    | _ => inner.assignment

/-- Simple statements up to the end of a line. -/
def simpleLine : Parser (List Statement) := do
  let first ← inner.simple
  let rest ← many (delimited (.symbol ";") (fun token => token != .newline) inner.simple)
  let _ ← accept (.symbol ";")
  expect .newline
  return first :: rest

/-! ### Compound statements -/

/-- A block behind a colon. -/
def body : Parser (List Statement) := do
  symbol ":"
  inner.block

/-- The block of a clause that a reserved word begins; empty if the clause is missing. -/
def clause (word : String) : Parser (List Statement) := do
  return (← after (.reserved word) inner.body).getD []

/-- A conditional statement. -/
def conditional : Parser Statement := do
  let first ← start
  reserved "if"
  let test ← inner.expressions.namedTest
  let body ← inner.body
  let elifs ← many (after (.reserved "elif") do
    let test ← inner.expressions.namedTest
    return (⟨test, ← inner.body⟩ : Branch Statement))
  let orelse ← inner.clause "else"
  let stop := Statement.stopOf (body ++ elifs.flatMap Branch.body ++ orelse) first
  return ⟨.conditional test body elifs orelse, ⟨first, stop⟩⟩

/-- A loop with a condition. -/
def whileLoop : Parser Statement := do
  let first ← start
  reserved "while"
  let test ← inner.expressions.namedTest
  let body ← inner.body
  let orelse ← inner.clause "else"
  return ⟨.whileLoop test body orelse, ⟨first, Statement.stopOf (body ++ orelse) first⟩⟩

/-- A loop over values. -/
def forLoop : Parser Statement := do
  let first ← start
  let _ ← accept (.reserved "async")
  reserved "for"
  let target ← inner.expressions.target
  reserved "in"
  let iter ← inner.expressions.testList
  let body ← inner.body
  let orelse ← inner.clause "else"
  return ⟨.forLoop target iter body orelse, ⟨first, Statement.stopOf (body ++ orelse) first⟩⟩

/-- A resource, perhaps with a target. -/
def withItem : Parser (WithItem Expression) := do
  let context ← inner.expressions.test
  let target ← after (.reserved "as") inner.expressions.operand
  return { context, target := target.map (Expression.withAccess .store) }

/-- Resources in parentheses, which a colon follows. -/
def parenthesizedItems : Parser (List (WithItem Expression)) := do
  symbol "("
  let items ← closedList (.symbol ")") inner.withItem
  if !items.isEmpty && (← looksAt (.symbol ":")) then return items else failure

/-- A block with resources. Parentheses around all resources are not part of an expression. -/
def withBlock : Parser Statement := do
  let first ← start
  let _ ← accept (.reserved "async")
  reserved "with"
  let items ← inner.parenthesizedItems <|> separated inner.withItem
  let body ← inner.body
  return ⟨.withBlock items body, ⟨first, Statement.stopOf body first⟩⟩

/-- A handler, with a star before its error if it takes groups apart. -/
def handler (grouped : Bool) : Parser (Handler Statement) := do
  let first ← start
  reserved "except"
  if grouped then symbol "*"
  let error ← if grouped then some <$> inner.expressions.test else
    whenNext Token.beginsTest inner.expressions.test
  let name ← if error.isSome then after (.reserved "as") name else pure none
  let body ← inner.body
  return { error, name, body, span := ⟨first, Statement.stopOf body first⟩ }

/-- A block with handlers or a final clause. -/
def tryBlock : Parser Statement := do
  let first ← start
  reserved "try"
  let body ← inner.body
  let handled ← looksAt (.reserved "except")
  let grouped := handled && (← peekSecond?) == some (.symbol "*")
  let handlers ← many do
    if ← looksAt (.reserved "except") then return some (← inner.handler grouped) else return none
  let orelse ← if handled then inner.clause "else" else pure []
  let finalbody ← inner.clause "finally"
  if !handled && finalbody.isEmpty then failure
  let stop := Statement.stopOf (body ++ handlers.flatMap Handler.body ++ orelse ++ finalbody) first
  return ⟨.tryBlock grouped body handlers orelse finalbody, ⟨first, stop⟩⟩

/-- A case of a `match` statement. -/
def matchCase : Parser (MatchCase Statement) := do
  reserved "case"
  let pattern ← inner.patterns.openSequence
  let guard ← after (.reserved "if") inner.expressions.namedTest
  return { pattern, guard, body := ← inner.body }

/-- A `match` statement. A subject with commas is a tuple that spans the whole statement. -/
def matchCases : Parser Statement := do
  let first ← start
  reserved "match"
  let subject ← commaList Token.beginsElement inner.expressions.element
  symbol ":"
  expect .newline
  expect .indent
  let head ← inner.matchCase
  let others ← many (whenNext (fun token => token != .dedent) inner.matchCase)
  expect .dedent
  let span : Span := ⟨first, Statement.stopOf ((head :: others).flatMap MatchCase.body) first⟩
  return ⟨.matchCases (tupleOrSingle subject span) head others, span⟩

/-- A function or class, with its decorators. -/
def decorated : Parser Statement := do
  let decorators ← many (after (.symbol "@") do
    let decorator ← inner.expressions.namedTest
    expect .newline
    return decorator)
  let first ← start
  if ← accept (.reserved "class") then
    let id ← name
    inner.typeParameters
    let found ← after (.symbol "(") inner.expressions.arguments
    let (bases, keywords) := found.getD ([], [])
    let body ← inner.body
    return ⟨.classDefinition id bases keywords body decorators,
      ⟨first, Statement.stopOf body first⟩⟩
  else
    let _ ← accept (.reserved "async")
    reserved "def"
    let id ← name
    inner.typeParameters
    symbol "("
    let parameters ← inner.expressions.parameters true (.symbol ")")
    let returns ← after (.symbol "->") inner.expressions.test
    let body ← inner.body
    return ⟨.definition id parameters returns body decorators,
      ⟨first, Statement.stopOf body first⟩⟩

/-- The parser of the compound statement that the next two tokens begin; none if they begin no such
statement. -/
def compound? (token second : Option Token) : Option (Parser Statement) :=
  match token with
  | some (.symbol "@") => some inner.decorated
  | some (.reserved word) =>
      match word with
      | "if" => some inner.conditional
      | "while" => some inner.whileLoop
      | "for" => some inner.forLoop
      | "try" => some inner.tryBlock
      | "with" => some inner.withBlock
      | "match" => some inner.matchCases
      | "def" | "class" => some inner.decorated
      | "async" =>
          if second == some (.reserved "for") then some inner.forLoop
          else if second == some (.reserved "with") then some inner.withBlock
          else some inner.decorated
      | _ => none
  | _ => none

/-- The statements of a line, or a compound statement. -/
def line : Parser (List Statement) := do
  match inner.compound? (← peek?) (← peekSecond?) with
  | some statement => return [← statement]
  | none => inner.simpleLine

/-- A block: the rest of a line, or deeper lines. -/
def suite : Parser (List Statement) := do
  if ← accept .newline then
    expect .indent
    let lines ← many (whenNext (fun token => token != .dedent) inner.line)
    expect .dedent
    return lines.flatten
  else inner.simpleLine

/-- The statements of a module, whose lines may be empty. -/
def module : Parser (List Statement) := do
  let lines ← many do
    if ← accept .newline then return some []
    else whenNext (fun _ => true) inner.line
  return lines.flatten

/-- The parsers of statements of which some are inside each other, at most a given number. -/
def upTo (expressions : ExpressionParsers) (patterns : PatternParsers) : Nat → StatementParsers
  | 0 => { expressions, patterns, block := failure }
  | depth + 1 => { expressions, patterns, block := (upTo expressions patterns depth).suite }

end StatementParsers

/-- Reads the statements of a module. No construct is nested deeper than there are characters. -/
def Statement.ofText? (text : List Char) : Option (List Statement) := do
  let lexemes ← Lexeme.ofText? true 0 text
  let depth := text.length + 1
  let expressions := ExpressionParsers.upTo depth
  let patterns := PatternParsers.upTo expressions.texts depth
  (StatementParsers.upTo expressions patterns depth).module.run? lexemes

end Python

end FlowAnalysis
