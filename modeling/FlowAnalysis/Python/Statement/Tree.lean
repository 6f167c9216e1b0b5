import FlowAnalysis.Python.Expression.Tree
import FlowAnalysis.Python.Statement

/-!
# Trees of statements

The tree that stands for a statement. An expression statement is its expression. A `match` statement
becomes a conditional one whose conditions are the subject and the guard of each case. Clauses that
have no span, those of `else` and `case`, are located at their word; what has no text of its own has
a location in line zero, with a column that no other such location has.
-/

namespace FlowAnalysis

namespace Python

/-- Makes trees and counts the locations in line zero. -/
abbrev Numbering := StateM Nat

/-- The next location in line zero. -/
def freshLocation (source : Source) : Numbering Location := fun count =>
  ({ firstLine := 0, firstColumn := count, lastLine := 0, lastColumn := count,
     path := source.path }, count + 1)

/-- The location of the word that begins a clause with a body. -/
def clauseLocation (source : Source) (word : String) (body : List Node) : Numbering Location :=
  match body.head?.bind fun first => source.wordLocation? word first.location with
  | some location => return location
  | none => freshLocation source

/-- The resources of a block. -/
def withItemNode (source : Source) (item : WithItem Expression) : WithItem Node :=
  ⟨item.context.toNode source, item.target.map (Expression.toNode source)⟩

/-- The targets and values of an assignment. A tuple that is assigned to a single tuple of its
length is taken apart. -/
def assignedNodes (source : Source) (targets : List Expression) (value : Expression) :
    List Node × List Node :=
  match targets, value with
  | [⟨.tuple names, _⟩], ⟨.tuple values, _⟩ =>
      if names.length = values.length then
        (Expression.toNodes source names, Expression.toNodes source values)
      else (Expression.toNodes source targets, [value.toNode source])
  | _, _ => (Expression.toNodes source targets, [value.toNode source])

namespace Statement

mutual

/-- The tree of a statement. -/
def toNode (source : Source) : Statement → Numbering Node
  | ⟨.expression value, _⟩ => return value.toNode source
  | ⟨.pass, span⟩ => return ⟨.pass, source.location span⟩
  | ⟨.breakLoop, span⟩ => return ⟨.breakLoop, source.location span⟩
  | ⟨.continueLoop, span⟩ => return ⟨.continueLoop, source.location span⟩
  | ⟨.delete targets, span⟩ =>
      return ⟨.delete (Expression.toNodes source targets), source.location span⟩
  | ⟨.assign targets value, span⟩ =>
      let (targets, sources) := assignedNodes source targets value
      return ⟨.assign none targets sources, source.location span⟩
  | ⟨.augment operator target value, span⟩ =>
      return ⟨.assign (some operator) [target.toNode source] [value.toNode source],
        source.location span⟩
  | ⟨.annotate target _ (some value), span⟩ =>
      return ⟨.assign none [target.toNode source] [value.toNode source], source.location span⟩
  | ⟨.annotate _ _ none, span⟩ => return ⟨.pass, source.location span⟩
  | ⟨.returnValue value, span⟩ =>
      return ⟨.returnValues (Expression.toNode? source value).toList, source.location span⟩
  | ⟨.raiseError error _, span⟩ =>
      return ⟨.raiseError (Expression.toNode? source error), source.location span⟩
  | ⟨.globalNames names, span⟩ => return ⟨.globalNames names, source.location span⟩
  | ⟨.nonlocalNames names, span⟩ => return ⟨.nonlocalNames names, source.location span⟩
  | ⟨.assertion test message, span⟩ =>
      return ⟨.assertion (test.toNode source) (Expression.toNode? source message),
        source.location span⟩
  | ⟨.importModules names, span⟩ => return ⟨.importModules names, source.location span⟩
  | ⟨.importFrom base names, span⟩ => return ⟨.importFrom base names, source.location span⟩
  | ⟨.typeAlias _ _, _⟩ => return ⟨.pass, ← freshLocation source⟩
  | ⟨.definition name parameters _ body decorators, span⟩ => do
      let body ← toNodes source body
      return ⟨.definition name (Expression.parameterNodes source parameters) body
        (Expression.toNodes source decorators), source.location span⟩
  | ⟨.classDefinition name bases keywords body decorators, span⟩ => do
      let body ← toNodes source body
      let bases := Expression.toNodes source bases ++
        keywords.map fun argument => argument.value.toNode source
      return ⟨.classDefinition name bases body (Expression.toNodes source decorators),
        source.location span⟩
  | ⟨.conditional test body elifs orelse, span⟩ => do
      let elifs ← branchNodes source elifs
      let orelse ← elseNode? source orelse
      let body ← toNodes source body
      return ⟨.conditional (test.toNode source) body elifs orelse, source.location span⟩
  | ⟨.whileLoop test body orelse, span⟩ => do
      let body ← toNodes source body
      let orelse ← toNodes source orelse
      return ⟨.whileLoop (test.toNode source) body orelse, source.location span⟩
  | ⟨.forLoop target iter body orelse, span⟩ => do
      let location := source.location span
      let iter := iter.toNode source
      let body ← toNodes source body
      let orelse ← toNodes source orelse
      return ⟨.forLoop (target.unpacked source) [iter] body orelse (upToEnd location iter.location),
        location⟩
  | ⟨.withBlock items body, span⟩ => do
      let body ← toNodes source body
      return ⟨.withBlock (items.map (withItemNode source)) body, source.location span⟩
  | ⟨.matchCases subject first rest, span⟩ => do
      let subject := subject.toNode source
      let first ← caseNode source subject first
      let rest ← caseNodes source subject rest
      return ⟨.conditional first.cond first.body rest none, source.location span⟩
  | ⟨.tryBlock true _ _ _ _, _⟩ => return ⟨.pass, ← freshLocation source⟩
  | ⟨.tryBlock false body handlers orelse finalbody, span⟩ => do
      let handlers ← handlerNodes source handlers
      let body ← toNodes source body
      let orelse ← toNodes source orelse
      let finalbody ← toNodes source finalbody
      return ⟨.tryBlock body handlers orelse finalbody, source.location span⟩

/-- The trees of several statements. -/
def toNodes (source : Source) : List Statement → Numbering (List Node)
  | [] => return []
  | statement :: rest => return (← toNode source statement) :: (← toNodes source rest)

/-- Clauses with conditions of their own. -/
def branchNodes (source : Source) : List (Branch Statement) → Numbering (List (ElifClause Node))
  | [] => return []
  | ⟨test, body⟩ :: rest => do
      let body ← toNodes source body
      return ⟨test.toNode source, body⟩ :: (← branchNodes source rest)

/-- A last clause without a condition, unless it is empty. -/
def elseNode? (source : Source) : List Statement → Numbering (Option Node)
  | [] => return none
  | statement :: rest => do
      let body := (← toNode source statement) :: (← toNodes source rest)
      return some ⟨.elseClause body, ← clauseLocation source "else" body⟩

/-- Handlers. -/
def handlerNodes (source : Source) :
    List (Handler Statement) → Numbering (List (ExceptHandler Node))
  | [] => return []
  | ⟨error, name, body, span⟩ :: rest => do
      let body ← toNodes source body
      return ⟨Expression.toNode? source error, name, body, source.location span⟩ ::
        (← handlerNodes source rest)

/-- A case, with the tree of the subject. -/
def caseNode (source : Source) (subject : Node) :
    MatchCase Statement → Numbering (ElifClause Node)
  | ⟨_, guard, body⟩ => do
      let body ← toNodes source body
      let location ← clauseLocation source "case" body
      let cond : Node := ⟨.tuple (subject :: (Expression.toNode? source guard).toList), location⟩
      return ⟨cond, body⟩

/-- Cases, with the tree of the subject. -/
def caseNodes (source : Source) (subject : Node) :
    List (MatchCase Statement) → Numbering (List (ElifClause Node))
  | [] => return []
  | first :: rest => return (← caseNode source subject first) :: (← caseNodes source subject rest)

end

end Statement

/-- The tree of a module. -/
def moduleNode (source : Source) (statements : List Statement) : Node :=
  ⟨.module ((Statement.toNodes source statements).run 0).1, source.location source.span⟩

end Python

end FlowAnalysis
