import FlowAnalysis.Python.Expression

/-!
# Statements

Statements as they are written, each with its span. `StatementForm` is parameterized by the type of
the statements inside a compound one. A pattern of a `match` statement is kept as the expressions
that it evaluates, in order; the names that it binds and the parameters of a type are read but not
kept.
-/

namespace FlowAnalysis

namespace Python

/-- An `elif` clause. -/
structure Branch (Inner : Type) where
  test : Expression
  body : List Inner

/-- An `except` clause. -/
structure Handler (Inner : Type) where
  error : Option Expression
  name : Option String
  body : List Inner
  span : Span

/-- A case of a `match` statement. -/
structure MatchCase (Inner : Type) where
  /-- The expressions that the pattern evaluates. -/
  pattern : List Expression
  guard : Option Expression
  body : List Inner

/-- What a statement is, with the statements inside it. -/
inductive StatementForm (Inner : Type) where
  | expression (value : Expression)
  | pass
  | breakLoop
  | continueLoop
  | delete (targets : List Expression)
  | assign (targets : List Expression) (value : Expression)
  | augment (operator : String) (target value : Expression)
  | annotate (target typeHint : Expression) (value : Option Expression)
  | returnValue (value : Option Expression)
  | raiseError (error cause : Option Expression)
  | globalNames (names : List String)
  | nonlocalNames (names : List String)
  | assertion (test : Expression) (message : Option Expression)
  | importModules (names : List ImportName)
  | importFrom (base : String) (names : List ImportName)
  | typeAlias (name : String) (value : Expression)
  | definition (name : String) (parameters : List (Parameter Expression))
      (returns : Option Expression) (body : List Inner) (decorators : List Expression)
  | classDefinition (name : String) (bases : List Expression) (keywords : List (Keyword Expression))
      (body : List Inner) (decorators : List Expression)
  | conditional (test : Expression) (body : List Inner) (elifs : List (Branch Inner))
      (orelse : List Inner)
  | whileLoop (test : Expression) (body orelse : List Inner)
  | forLoop (target iter : Expression) (body orelse : List Inner)
  | withBlock (items : List (WithItem Expression)) (body : List Inner)
  /-- There is at least one case. -/
  | matchCases (subject : Expression) (first : MatchCase Inner) (rest : List (MatchCase Inner))
  /-- The handlers of a grouped block take apart groups of errors. -/
  | tryBlock (grouped : Bool) (body : List Inner) (handlers : List (Handler Inner))
      (orelse finalbody : List Inner)

/-- A statement with its span. -/
structure Statement where
  form : StatementForm Statement
  span : Span

namespace Statement

/-- The offset at which the last of some statements ends, or another one if there is none. -/
def stopOf (statements : List Statement) (otherwise : Nat) : Nat :=
  match statements.getLast? with
  | some last => last.span.stop
  | none => otherwise

end Statement

end Python

end FlowAnalysis
