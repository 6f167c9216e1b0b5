import FlowAnalysis.Python.Token
import FlowAnalysis.Tree.Node

/-!
# Expressions

Expressions as they are written, each with its span. `ExpressionForm` says which kind of expression
it is, with the type of the parts as a parameter. A name says what the expression does with it:
`Expression.withAccess` makes an expression the target of an assignment or deletion.
-/

namespace FlowAnalysis

namespace Python

/-- What is done with a name. -/
inductive Access where
  | load | store | delete
deriving DecidableEq, Repr

/-- A value that is written down. -/
inductive Constant where
  | null
  | boolean (value : Bool)
  | integer (value : Nat)
  | float (value : Binary64)
  | imaginary
  | text (value : String)
  | bytes (value : List UInt8)
  | ellipsis
deriving DecidableEq, Repr

/-- An argument given by its name; one without a name unpacks a mapping. -/
structure Keyword (Part : Type) where
  name : Option String
  value : Part
deriving Repr

/-- A further operator of a chained comparison with its right operand. -/
structure Comparison (Part : Type) where
  operator : String
  right : Part
deriving Repr

/-- How a parameter takes arguments: one, the positional ones that are left, or those by name that
are left. -/
inductive ParameterKind where
  | single | positionalRest | keywordRest
deriving DecidableEq, Repr

/-- A parameter of a function. -/
structure Parameter (Part : Type) where
  name : String
  kind : ParameterKind
  typeHint : Option Part
  default : Option Part
  span : Span
deriving Repr

/-- A `for` clause of a comprehension with the conditions after it. -/
structure CompClause (Part : Type) where
  target : Part
  iter : Part
  tests : List Part
deriving Repr

/-- What an expression is, with its parts. -/
inductive ExpressionForm (Part : Type) where
  | constant (value : Constant)
  | name (id : String) (access : Access)
  /-- A text with replacement fields. -/
  | joined (parts : List Part)
  /-- A replacement field with the fields inside its format. -/
  | replacement (value : Part) (format : List Part)
  | attribute (value : Part) (name : String)
  | subscript (value index : Part)
  | slice (start stop step : Option Part)
  | starred (value : Part)
  | call (func : Part) (arguments : List Part) (keywords : List (Keyword Part))
  | unary (operator : String) (operand : Part)
  | binary (operator : String) (left right : Part)
  /-- Two or more operands of `and` or of `or`. -/
  | chain (operator : String) (first : Part) (rest : List Part)
  | comparison (left : Part) (rest : List (Comparison Part))
  | conditional (test consequent alternative : Part)
  | lambda (parameters : List (Parameter Part)) (body : Part)
  /-- An assignment inside an expression. -/
  | binding (target value : Part)
  | await (value : Part)
  | yieldValue (value : Option Part)
  | yieldFrom (value : Part)
  | tuple (elements : List Part)
  | list (elements : List Part)
  | set (elements : List Part)
  | dict (entries : List (DictEntry Part))
  | listComp (element : Part) (clauses : List (CompClause Part))
  | setComp (element : Part) (clauses : List (CompClause Part))
  | dictComp (key value : Part) (clauses : List (CompClause Part))
  | generator (element : Part) (clauses : List (CompClause Part))
deriving Repr

/-- An expression with its span. -/
structure Expression where
  form : ExpressionForm Expression
  span : Span

namespace Expression

mutual

/-- The expression with another access to the names that it consists of: itself, or the elements of
a list or tuple. -/
def withAccess (access : Access) : Expression → Expression
  | ⟨.name id _, span⟩ => ⟨.name id access, span⟩
  | ⟨.tuple elements, span⟩ => ⟨.tuple (withAccesses access elements), span⟩
  | ⟨.list elements, span⟩ => ⟨.list (withAccesses access elements), span⟩
  | ⟨.starred value, span⟩ => ⟨.starred (withAccess access value), span⟩
  | other => other

/-- Another access for each of several expressions. -/
def withAccesses (access : Access) : List Expression → List Expression
  | [] => []
  | expression :: rest => withAccess access expression :: withAccesses access rest

end

/-- Whether an expression unpacks another one. -/
def isStarred (expression : Expression) : Bool :=
  match expression.form with
  | .starred _ => true
  | _ => false

end Expression

end Python

end FlowAnalysis
