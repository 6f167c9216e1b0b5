import FlowAnalysis.Python.Parser
import FlowAnalysis.Python.TextLiteral
import FlowAnalysis.Python.Token.Layout

/-!
# Grammar of expressions

One parser for each kind of expression, from the tightest to the loosest. Where a production holds
an expression again, it calls one of the `ExpressionParsers` it is given; these are tied into a knot
by `ExpressionParsers.upTo`, which counts how deep expressions may be inside each other. A
production reads a token before it calls one of them, so a count of the characters is always enough.

A parenthesized expression has the span of what is inside the parentheses, except that the
parentheses of a tuple or generator belong to it.
-/

namespace FlowAnalysis

namespace Python

open FlowAnalysis.Python.Parser

/-- The parsers that a production calls for the expressions inside it. -/
structure ExpressionParsers where
  /-- Any expression that needs no parentheses as an argument. -/
  test : Parser Expression
  /-- Operands of `or`. -/
  disjunction : Parser Expression
  /-- An operand of `and`. -/
  negation : Parser Expression
  /-- An operand of a comparison. -/
  operand : Parser Expression
  /-- An operand of a product. -/
  factor : Parser Expression
  /-- The expression of a replacement field, whose opening brace is at an offset. -/
  embedded : Nat → List Char → Option Expression

/-- Whether a token can begin an expression. -/
def Token.beginsTest : Token → Bool
  | name _ | integer _ | float _ | imaginary | text _ _ _ => true
  | reserved word => ["not", "lambda", "await", "None", "True", "False"].contains word
  | symbol mark => ["(", "[", "\x7b", "-", "+", "~", "..."].contains mark
  | newline | indent | dedent => false

/-- Whether a token can begin an element of a list. -/
def Token.beginsElement (token : Token) : Bool :=
  token == symbol "*" || token.beginsTest

/-- A tuple of several elements, or the only element if no comma follows it. -/
def tupleOrSingle (element : Expression × List Expression × Bool) (span : Span) : Expression :=
  match element with
  | (single, [], false) => single
  | (first, rest, _) => ⟨.tuple (first :: rest), span⟩

namespace ExpressionParsers

variable (inner : ExpressionParsers)

/-! ### Elements -/

/-- An expression behind a star. -/
def starred : Parser Expression :=
  spanning do
    symbol "*"
    let value ← inner.operand
    return (⟨.starred value, ·⟩)

/-- Whether an assignment to a name comes next, inside an expression. -/
def beginsBinding : Parser Bool := do
  match ← peek?, ← peekSecond? with
  | some (.name _), some (.symbol ":=") => return true
  | _, _ => return false

/-- An expression, or an assignment to a name inside an expression. -/
def namedTest : Parser Expression := do
  if ← beginsBinding then
    let target ← spanning do
      let id ← name
      return (⟨.name id .store, ·⟩)
    symbol ":="
    let value ← inner.test
    return ⟨.binding target value, ⟨target.span.start, value.span.stop⟩⟩
  else inner.test

/-- An element of a display. -/
def element : Parser Expression := do
  if ← looksAt (.symbol "*") then inner.starred else inner.namedTest

/-- An expression, perhaps behind a star. -/
def testOrStar : Parser Expression := do
  if ← looksAt (.symbol "*") then inner.starred else inner.test

/-- Expressions with commas between them: a tuple unless there is only one. -/
def testList : Parser Expression :=
  spanning do
    return tupleOrSingle (← commaList Token.beginsElement inner.testOrStar)

/-- Targets with commas between them. -/
def targets : Parser (Expression × List Expression × Bool) :=
  commaList Token.beginsElement do
    if ← looksAt (.symbol "*") then inner.starred else inner.operand

/-- The target of a loop. -/
def target : Parser Expression := do
  let found ← spanning do return tupleOrSingle (← inner.targets)
  return found.withAccess .store

/-- An expression that suspends its function. -/
def yieldTest : Parser Expression :=
  spanning do
    reserved "yield"
    if ← accept (.reserved "from") then
      let value ← inner.test
      return (⟨.yieldFrom value, ·⟩)
    else
      let value ← whenNext Token.beginsElement inner.testList
      return (⟨.yieldValue value, ·⟩)

/-! ### Comprehensions -/

/-- A `for` clause of a comprehension, if one comes next. -/
def compClause? : Parser (Option (CompClause Expression)) := do
  let suspends ← accept (.reserved "async")
  if suspends || (← looksAt (.reserved "for")) then
    reserved "for"
    let target ← inner.target
    reserved "in"
    let iter ← inner.disjunction
    let tests ← many (after (.reserved "if") inner.disjunction)
    return some { target, iter, tests }
  else return none

/-- The clauses of a comprehension. -/
def compClauses : Parser (List (CompClause Expression)) :=
  many inner.compClause?

/-! ### Arguments -/

/-- An argument of a call. -/
inductive CallArgument where
  | positional (value : Expression)
  | keyword (argument : Keyword Expression)

/-- An argument of a call. A comprehension without parentheses is a generator. -/
def argument : Parser CallArgument := do
  match ← peek?, ← peekSecond? with
  | some (.symbol "*"), _ =>
      let value ← spanning do
        symbol "*"
        let value ← inner.test
        return (⟨.starred value, ·⟩)
      return .positional value
  | some (.symbol "**"), _ =>
      symbol "**"
      return .keyword ⟨none, ← inner.test⟩
  | some (.name id), some (.symbol "=") =>
      let _ ← name
      symbol "="
      return .keyword ⟨some id, ← inner.test⟩
  | _, _ =>
      let value ← spanning do
        let value ← inner.namedTest
        match ← inner.compClauses with
        | [] => return fun _ => value
        | clauses => return (⟨.generator value clauses, ·⟩)
      return .positional value

/-- Whether a list of arguments is in order: after one by name a positional one needs a star, after
an unpacked mapping there is none, and no name is given twice. -/
def inOrder (named : List String) (afterKeyword afterMapping : Bool) : List CallArgument → Bool
  | [] => true
  | .positional value :: rest =>
      (value.isStarred || !afterKeyword) && !afterMapping &&
        inOrder named afterKeyword afterMapping rest
  | .keyword ⟨none, _⟩ :: rest => inOrder named true true rest
  | .keyword ⟨some name, _⟩ :: rest =>
      !named.contains name && inOrder (name :: named) true afterMapping rest

/-- The arguments of a call from behind the opening parenthesis: the positional ones and those by
name. -/
def arguments : Parser (List Expression × List (Keyword Expression)) := do
  let arguments ← closedList (.symbol ")") inner.argument
  if inOrder [] false false arguments then
    let positional := arguments.filterMap fun
      | .positional value => some value
      | .keyword _ => none
    let keywords := arguments.filterMap fun
      | .positional _ => none
      | .keyword argument => some argument
    return (positional, keywords)
  else failure

/-! ### Parameters -/

/-- What a list of parameters is made of. -/
inductive ParameterItem where
  | single (parameter : Parameter Expression)
  /-- The slash behind parameters that take no arguments by name. -/
  | slash
  | star (parameter : Option (Parameter Expression))
  | doubleStar (parameter : Option (Parameter Expression))

/-- A parameter, with a type if types are allowed. -/
def parameter (typed : Bool) (kind : ParameterKind) : Parser (Parameter Expression) := do
  let bare ← spanning do
    let id ← name
    let typeHint ←
      if typed then
        after (.symbol ":") (if kind = .positionalRest then inner.testOrStar else inner.test)
      else pure none
    return fun span => { name := id, kind, typeHint, default := none, span : Parameter Expression }
  if kind = .single then
    let default ← after (.symbol "=") inner.test
    return { bare with default }
  else return bare

/-- A parameter, a slash or stars. -/
def parameterItem (typed : Bool) : Parser ParameterItem := do
  let beginsName : Token → Bool
    | .name _ => true
    | _ => false
  if ← accept (.symbol "/") then return .slash
  else if ← accept (.symbol "*") then
    return .star (← whenNext beginsName (inner.parameter typed .positionalRest))
  else if ← accept (.symbol "**") then
    return .doubleStar (← whenNext beginsName (inner.parameter typed .keywordRest))
  else return .single (← inner.parameter typed .single)

/-- Whether what follows the star of a list of parameters is in order: parameters, and then perhaps
a double star. -/
def keywordOnlyInOrder : List ParameterItem → Bool
  | [] => true
  | .single _ :: rest => keywordOnlyInOrder rest
  | [.doubleStar _] => true
  | _ => false

/-- Whether a list of parameters is in order: a slash comes behind a parameter and only once, a bare
star is not the last item, and before the star every parameter behind one with a default has a
default. -/
def parametersInOrder (afterSingle afterSlash afterDefault : Bool) : List ParameterItem → Bool
  | [] => true
  | .single parameter :: rest =>
      (parameter.default.isSome || !afterDefault) &&
        parametersInOrder true afterSlash parameter.default.isSome rest
  | .slash :: rest =>
      afterSingle && !afterSlash && parametersInOrder afterSingle true afterDefault rest
  | .star none :: rest => !rest.isEmpty && keywordOnlyInOrder rest
  | .star (some _) :: rest => keywordOnlyInOrder rest
  | .doubleStar _ :: rest => rest.isEmpty

/-- The parameters up to a closing token. No two have the same name. -/
def parameters (typed : Bool) (closing : Token) : Parser (List (Parameter Expression)) := do
  let items ← closedList closing (inner.parameterItem typed)
  let parameters := items.filterMap fun
    | .single parameter => some parameter
    | .slash => none
    | .star parameter | .doubleStar parameter => parameter
  if parametersInOrder false false false items ∧ (parameters.map Parameter.name).Nodup then
    return parameters
  else failure

/-! ### Atoms -/

/-- Neighbouring text literals. -/
def texts : Parser Expression := do
  let first ← start
  let literals ← many do
    match ← peek? with
    | some (.text kind content offset) =>
        let _ ← advance
        return some ⟨kind, content, offset⟩
    | _ => return none
  match TextLiteral.value? inner.embedded literals ⟨first, ← stop⟩ with
  | some value => return value
  | none => failure

/-- What is in parentheses, from behind the opening one. Parentheses span a tuple or generator. -/
def parenthesized : Parser (Span → Expression) := do
  if ← accept (.symbol ")") then return (⟨.tuple [], ·⟩)
  else if ← looksAt (.reserved "yield") then
    let value ← inner.yieldTest
    symbol ")"
    return fun _ => value
  else
    let first ← inner.element
    let clauses ← inner.compClauses
    if clauses.isEmpty then
      let rest ← many (commaItem (fun token => token != .symbol ")") inner.element)
      let trailing ← accept (.symbol ",")
      symbol ")"
      if rest.isEmpty && !trailing then
        if first.isStarred then failure else return fun _ => first
      else return (⟨.tuple (first :: rest), ·⟩)
    else if first.isStarred then failure
    else
      symbol ")"
      return (⟨.generator first clauses, ·⟩)

/-- What is in square brackets, from behind the opening one. -/
def bracketed : Parser (Span → Expression) := do
  if ← accept (.symbol "]") then return (⟨.list [], ·⟩)
  else
    let first ← inner.element
    match ← inner.compClauses with
    | [] =>
        let rest ← many (commaItem (fun token => token != .symbol "]") inner.element)
        let _ ← accept (.symbol ",")
        symbol "]"
        return (⟨.list (first :: rest), ·⟩)
    | clauses =>
        symbol "]"
        return (⟨.listComp first clauses, ·⟩)

/-- An entry of a dictionary. -/
def entry : Parser (DictEntry Expression) := do
  if ← accept (.symbol "**") then return ⟨none, ← inner.operand⟩
  else
    let key ← inner.test
    symbol ":"
    return ⟨some key, ← inner.test⟩

/-- The entries of a dictionary behind the first one, up to the closing brace. -/
def dictRest (first : DictEntry Expression) : Parser (Span → Expression) := do
  let rest ← many (commaItem (fun token => token != .symbol "\x7d") inner.entry)
  let _ ← accept (.symbol ",")
  symbol "\x7d"
  return (⟨.dict (first :: rest), ·⟩)

/-- What is in braces, from behind the opening one. -/
def braced : Parser (Span → Expression) := do
  if ← accept (.symbol "\x7d") then return (⟨.dict [], ·⟩)
  else if ← looksAt (.symbol "**") then
    inner.dictRest (← inner.entry)
  else
    let binds ← beginsBinding
    let first ← inner.element
    if !binds && !first.isStarred && (← looksAt (.symbol ":")) then
      symbol ":"
      let value ← inner.test
      match ← inner.compClauses with
      | [] => inner.dictRest ⟨some first, value⟩
      | clauses =>
          symbol "\x7d"
          return (⟨.dictComp first value clauses, ·⟩)
    else
      match ← inner.compClauses with
      | [] =>
          let rest ← many (commaItem (fun token => token != .symbol "\x7d") inner.element)
          let _ ← accept (.symbol ",")
          symbol "\x7d"
          return (⟨.set (first :: rest), ·⟩)
      | clauses =>
          symbol "\x7d"
          if first.isStarred then failure else return (⟨.setComp first clauses, ·⟩)

/-- An expression that is one token or is in brackets. -/
def atom : Parser Expression := do
  match ← peek? with
  | some (.text _ _ _) => inner.texts
  | _ =>
      spanning do
        match ← advance with
        | .name id => return (⟨.name id .load, ·⟩)
        | .integer value => return (⟨.constant (.integer value), ·⟩)
        | .float value => return (⟨.constant (.float value), ·⟩)
        | .imaginary => return (⟨.constant .imaginary, ·⟩)
        | .reserved "None" => return (⟨.constant .null, ·⟩)
        | .reserved "True" => return (⟨.constant (.boolean true), ·⟩)
        | .reserved "False" => return (⟨.constant (.boolean false), ·⟩)
        | .symbol "..." => return (⟨.constant .ellipsis, ·⟩)
        | .symbol "(" => inner.parenthesized
        | .symbol "[" => inner.bracketed
        | .symbol "\x7b" => inner.braced
        | _ => failure

/-! ### Operators -/

/-- A subscript: an element or a slice. -/
def subscriptItem : Parser Expression := do
  let first ← start
  let binds ← beginsBinding
  let lower ← whenNext (fun token => token != .symbol ":") inner.element
  if !binds && !lower.any Expression.isStarred && (← looksAt (.symbol ":")) then
    symbol ":"
    let upper ← whenNext Token.beginsTest inner.test
    let step ←
      if ← accept (.symbol ":") then whenNext Token.beginsTest inner.test else pure none
    return ⟨.slice lower upper step, ⟨first, ← stop⟩⟩
  else
    match lower with
    | some value => return value
    | none => failure

/-- A call, subscript or attribute behind an expression that starts at an offset. -/
def trailer? (first : Nat) : Parser (Option (Expression → Expression)) := do
  if ← accept (.symbol "(") then
    let (arguments, keywords) ← inner.arguments
    let span : Span := ⟨first, ← stop⟩
    return some fun func => ⟨.call func arguments keywords, span⟩
  else if ← accept (.symbol "[") then
    let index ← spanning do
      return tupleOrSingle (← commaList (fun token => token != .symbol "]") inner.subscriptItem)
    symbol "]"
    let span : Span := ⟨first, ← stop⟩
    return some fun value => ⟨.subscript value index, span⟩
  else if ← accept (.symbol ".") then
    let id ← name
    let span : Span := ⟨first, ← stop⟩
    return some fun value => ⟨.attribute value id, span⟩
  else return none

/-- An atom with calls, subscripts and attributes behind it. -/
def trailed : Parser Expression := do
  let first ← start
  let base ← inner.atom
  let trailers ← many (inner.trailer? first)
  return trailers.foldl (fun value trailer => trailer value) base

/-- An expression that may wait for its value. -/
def primary : Parser Expression := do
  if ← looksAt (.reserved "await") then
    spanning do
      reserved "await"
      let value ← inner.trailed
      return (⟨.await value, ·⟩)
  else inner.trailed

/-- A power, whose exponent extends as far as it can. -/
def power : Parser Expression := do
  let first ← start
  let base ← inner.primary
  if ← accept (.symbol "**") then
    let exponent ← inner.factor
    return ⟨.binary "**" base exponent, ⟨first, ← stop⟩⟩
  else return base

/-- A power, perhaps behind signs. -/
def signed : Parser Expression := do
  match ← peek? with
  | some (.symbol operator) =>
      if ["+", "-", "~"].contains operator then
        spanning do
          symbol operator
          let operand ← inner.factor
          return (⟨.unary operator operand, ·⟩)
      else inner.power
  | _ => inner.power

/-- One of some operators. -/
def operatorOf (operators : List String) : Parser (Option String) := do
  match ← peek? with
  | some (.symbol operator) =>
      if operators.contains operator then
        symbol operator
        return some operator
      else return none
  | _ => return none

/-- Operands between binary operators that associate to the left. -/
def leftAssociative (operators : List String) (operand : Parser Expression) :
    Parser Expression := do
  let first ← start
  let left ← operand
  let rest ← many do
    match ← operatorOf operators with
    | some operator =>
        let right ← operand
        let span : Span := ⟨first, ← stop⟩
        return some fun left => (⟨.binary operator left right, span⟩ : Expression)
    | none => return none
  return rest.foldl (fun left extend => extend left) left

/-- The binary operators, from the loosest to the tightest. -/
def binaryOperators : List (List String) :=
  [["|"], ["^"], ["&"], ["<<", ">>"], ["+", "-"], ["*", "/", "//", "%", "@"]]

/-- Operands between binary operators. -/
def arithmetic : Parser Expression :=
  binaryOperators.foldr leftAssociative inner.signed

/-- The operator of a comparison, if one comes next. -/
def comparisonOperator? : Parser (Option String) := do
  if ← accept (.reserved "not") then
    reserved "in"
    return some "not in"
  else if ← accept (.reserved "in") then return some "in"
  else if ← accept (.reserved "is") then
    return some (if ← accept (.reserved "not") then "is not" else "is")
  else operatorOf ["==", "!=", "<", "<=", ">", ">="]

/-- A chain of comparisons. -/
def comparisons : Parser Expression :=
  spanning do
    let left ← inner.arithmetic
    let rest ← many do
      match ← comparisonOperator? with
      | some operator => return some ⟨operator, ← inner.arithmetic⟩
      | none => return none
    if rest.isEmpty then return fun _ => left else return (⟨.comparison left rest, ·⟩)

/-- A comparison, perhaps negated. -/
def negated : Parser Expression := do
  if ← looksAt (.reserved "not") then
    spanning do
      reserved "not"
      let operand ← inner.negation
      return (⟨.unary "not" operand, ·⟩)
  else inner.comparisons

/-- Operands between occurrences of a word. -/
def chain (word : String) (operand : Parser Expression) : Parser Expression :=
  spanning do
    let first ← operand
    let rest ← many (after (.reserved word) operand)
    if rest.isEmpty then return fun _ => first else return (⟨.chain word first rest, ·⟩)

/-- Operands of `or`, each of them operands of `and`. -/
def alternatives : Parser Expression :=
  chain "or" (chain "and" inner.negated)

/-- A function without a name. -/
def lambda : Parser Expression :=
  spanning do
    reserved "lambda"
    let parameters ← inner.parameters false (.symbol ":")
    let body ← inner.test
    return (⟨.lambda parameters body, ·⟩)

/-- An expression, perhaps one that depends on a condition. -/
def conditional : Parser Expression := do
  if ← looksAt (.reserved "lambda") then inner.lambda
  else
    spanning do
      let consequent ← inner.alternatives
      if ← accept (.reserved "if") then
        let test ← inner.disjunction
        reserved "else"
        let alternative ← inner.test
        return (⟨.conditional test consequent alternative, ·⟩)
      else return fun _ => consequent

/-- The expression of a replacement field, read as if its braces were parentheses. The opening brace
is at an offset. -/
def embeddedTest (offset : Nat) (text : List Char) : Option Expression := do
  let lexemes ← Lexeme.ofText? false offset ('(' :: text ++ [')'])
  let parser : Parser Expression := do
    let value ← inner.testList
    let _ ← many (after .newline (return ()))
    return value
  parser.run? lexemes

/-- The parsers of expressions of which some are inside each other, at most a given number. -/
def upTo : Nat → ExpressionParsers
  | 0 =>
      { test := failure
        disjunction := failure
        negation := failure
        operand := failure
        factor := failure
        embedded := fun _ _ => none }
  | depth + 1 =>
      let inner := upTo depth
      { test := inner.conditional
        disjunction := inner.alternatives
        negation := inner.negated
        operand := inner.arithmetic
        factor := inner.signed
        embedded := inner.embeddedTest }

end ExpressionParsers

end Python

end FlowAnalysis
