import FlowAnalysis.Python.Expression
import FlowAnalysis.Text.Utf8

/-!
# Trees of expressions

The tree that stands for an expression. Chains of operators become nested binary ones, all with the
location of the chain; an assignment inside an expression is a pair, a text with fields the tuple of
its parts. A replacement field, as well as an expression that waits, is its value.
-/

namespace FlowAnalysis

namespace Python

/-- The JSON value of a constant. Integers that need more than sixty-four bits are their digits. -/
def Constant.toJson : Constant → Json
  | .null => .null
  | .boolean value => .bool value
  | .integer value => if value < 0x8000000000000000 then .natural value else .string (toString value)
  | .float value => if value.isFinite then .number (.float value) else .null
  | .imaginary => .string "complex"
  | .text value => .string value
  | .bytes value => .string (Text.decodeLenient value)
  | .ellipsis => .string "..."

/-- A location that starts like one and ends like another. -/
def upToEnd (first last : Location) : Location :=
  { first with lastLine := last.lastLine, lastColumn := last.lastColumn }

/-- The nodes of a `for` clause of a comprehension and of the conditions after it. -/
def compNodes (targets : List Node) (iter : Node) (tests : List Node) : List Node :=
  let location :=
    match targets with
    | first :: _ => upToEnd first.location iter.location
    | [] => iter.location
  ⟨.compFor targets iter, location⟩ :: tests.map fun test => ⟨.compIf test, test.location⟩

namespace Expression

mutual

/-- The tree of an expression. -/
def toNode (source : Source) : Expression → Node
  | ⟨.constant value, span⟩ => ⟨.literal value.toJson, source.location span⟩
  | ⟨.name id _, span⟩ => ⟨.name id, source.location span⟩
  | ⟨.joined parts, span⟩ => ⟨.tuple (toNodes source parts), source.location span⟩
  | ⟨.replacement value _, _⟩ => toNode source value
  | ⟨.attribute value id, span⟩ => ⟨.dot (toNode source value) id, source.location span⟩
  | ⟨.subscript value index, span⟩ =>
      let indices :=
        match index with
        | ⟨.tuple elements, _⟩ => toNodes source elements
        | index => [toNode source index]
      ⟨.index (toNode source value) indices, source.location span⟩
  | ⟨.slice start stop step, span⟩ =>
      ⟨.slice (toNode? source start) (toNode? source stop) (toNode? source step),
        source.location span⟩
  | ⟨.starred value, span⟩ => ⟨.starred (toNode source value), source.location span⟩
  | ⟨.call func arguments keywords, span⟩ =>
      ⟨.call (toNode source func)
          (positionalNodes source arguments ++ keywordNodes source keywords),
        source.location span⟩
  | ⟨.unary operator operand, span⟩ =>
      ⟨.unaryOp operator (toNode source operand), source.location span⟩
  | ⟨.binary operator left right, span⟩ =>
      ⟨.binaryOp operator (toNode source left) (toNode source right), source.location span⟩
  | ⟨.chain operator first rest, span⟩ =>
      chained source operator (source.location span) (toNode source first) rest
  | ⟨.comparison left rest, span⟩ =>
      compared source (source.location span) (toNode source left) rest
  | ⟨.conditional test consequent alternative, span⟩ =>
      ⟨.ifExpr (toNode source test) (toNode source consequent) (toNode source alternative),
        source.location span⟩
  | ⟨.lambda parameters body, span⟩ =>
      ⟨.lambda (parameterNodes source parameters) (toNode source body), source.location span⟩
  | ⟨.binding target value, span⟩ =>
      ⟨.tuple [toNode source target, toNode source value], source.location span⟩
  | ⟨.await value, _⟩ => toNode source value
  | ⟨.yieldValue value, span⟩ =>
      ⟨.yieldValues (toNode? source value).toList false, source.location span⟩
  | ⟨.yieldFrom value, span⟩ => ⟨.yieldValues [toNode source value] true, source.location span⟩
  | ⟨.tuple elements, span⟩ => ⟨.tuple (toNodes source elements), source.location span⟩
  | ⟨.list elements, span⟩ => ⟨.list (toNodes source elements) [], source.location span⟩
  | ⟨.set elements, span⟩ => ⟨.set (toNodes source elements) [], source.location span⟩
  | ⟨.dict entries, span⟩ => ⟨.dict (entryNodes source entries) [], source.location span⟩
  | ⟨.listComp element clauses, span⟩ =>
      ⟨.list [toNode source element] (clauseNodes source clauses), source.location span⟩
  | ⟨.setComp element clauses, span⟩ =>
      ⟨.set [toNode source element] (clauseNodes source clauses), source.location span⟩
  | ⟨.dictComp key value clauses, span⟩ =>
      ⟨.dict [⟨some (toNode source key), toNode source value⟩] (clauseNodes source clauses),
        source.location span⟩
  | ⟨.generator element clauses, span⟩ =>
      ⟨.list [toNode source element] (clauseNodes source clauses), source.location span⟩

/-- The tree of an expression that may be missing. -/
def toNode? (source : Source) : Option Expression → Option Node
  | none => none
  | some expression => some (toNode source expression)

/-- The trees of several expressions. -/
def toNodes (source : Source) : List Expression → List Node
  | [] => []
  | expression :: rest => toNode source expression :: toNodes source rest

/-- Positional arguments of a call. -/
def positionalNodes (source : Source) : List Expression → List (Argument Node)
  | [] => []
  | ⟨.starred value, _⟩ :: rest =>
      { actual := toNode source value, keyword := none, varargs := true, kwargs := false } ::
        positionalNodes source rest
  | value :: rest =>
      { actual := toNode source value, keyword := none, varargs := false, kwargs := false } ::
        positionalNodes source rest

/-- Arguments of a call that are given by name. -/
def keywordNodes (source : Source) : List (Keyword Expression) → List (Argument Node)
  | [] => []
  | ⟨name, value⟩ :: rest =>
      { actual := toNode source value, keyword := name, varargs := false, kwargs := name.isNone } ::
        keywordNodes source rest

/-- Operands of one operator, from the left; the location is that of the chain. -/
def chained (source : Source) (operator : String) (location : Location) (left : Node) :
    List Expression → Node
  | [] => left
  | right :: rest =>
      chained source operator location ⟨.binaryOp operator left (toNode source right), location⟩
        rest

/-- Operands of several comparisons, from the left; the location is that of the chain. -/
def compared (source : Source) (location : Location) (left : Node) :
    List (Comparison Expression) → Node
  | [] => left
  | ⟨operator, right⟩ :: rest =>
      compared source location ⟨.binaryOp operator left (toNode source right), location⟩ rest

/-- Entries of a dictionary. -/
def entryNodes (source : Source) : List (DictEntry Expression) → List (DictEntry Node)
  | [] => []
  | ⟨key, value⟩ :: rest =>
      ⟨toNode? source key, toNode source value⟩ :: entryNodes source rest

/-- Parameters of a function. -/
def parameterNodes (source : Source) : List (Parameter Expression) → List Node
  | [] => []
  | ⟨name, kind, typeHint, default, span⟩ :: rest =>
      ⟨.parameter name (toNode? source typeHint) (toNode? source default)
          (kind == .positionalRest) (kind == .keywordRest),
        source.location span⟩ :: parameterNodes source rest

/-- Clauses of a comprehension. -/
def clauseNodes (source : Source) : List (CompClause Expression) → List Node
  | [] => []
  | ⟨target, iter, tests⟩ :: rest =>
      let targets :=
        match target with
        | ⟨.tuple elements, _⟩ => toNodes source elements
        | target => [toNode source target]
      compNodes targets (toNode source iter) (toNodes source tests) ++ clauseNodes source rest

end

/-- The trees of the elements of a tuple, or the tree of another expression. -/
def unpacked (source : Source) (expression : Expression) : List Node :=
  match expression.form with
  | .tuple elements => toNodes source elements
  | _ => [expression.toNode source]

end Expression

end Python

end FlowAnalysis
