import FlowAnalysis.Proofs.ControlFlow.Structured
import FlowAnalysis.Proofs.Forest

/-!
# How statements are nested

`Node.nesting` arranges the nodes that a statement places as a forest. Beneath a condition stand its
body and all that comes if it does not hold, beneath the head of a loop stands the body of the loop;
everything else is a row. `Command.nesting` is the same forest read off commands. Commands whose
labels are exchanged one by one keep their shape, so every command is an image of one whose labels
are any given list.
-/

namespace FlowAnalysis

namespace Node

/-- Neither a jump, `return` included, nor a `try` statement. -/
def FallsThrough (statement : Node) : Prop :=
  match statement.shape with
  | .returnValues _ | .raiseError _ | .breakLoop | .continueLoop | .tryBlock .. => False
  | _ => True

/-- A last clause places its header in front of its body, unless the body is empty. -/
def nestingClause (header : Node) (body : Forest Node) (empty : Bool) : Forest Node :=
  if empty then .nil else .tree header .nil body

mutual

/-- The nodes that a statement places. -/
def nesting : Node → Forest Node
  | ⟨.conditional cond body elifs orelse, _⟩ =>
      .tree cond (nestingAll body ++ nestingClauses elifs (nestingOrelse orelse)) .nil
  | ⟨.whileLoop cond body orelse, _⟩ => .tree cond (nestingAll body) (nestingAll orelse)
  | ⟨.forLoop targets iter body orelse declLocation, _⟩ =>
      .tree (.binding targets iter declLocation) (nestingAll body) (nestingAll orelse)
  | ⟨.withBlock items body, _⟩ => .leaves (items.map WithItem.placed) ++ nestingAll body
  | ⟨.tryBlock body handlers orelse finalbody, _⟩ =>
      nestingAll body ++ (nestingHandlers handlers ++ (nestingAll orelse ++ nestingAll finalbody))
  | statement => .tree statement .nil .nil

/-- The nodes that statements place. -/
def nestingAll : List Node → Forest Node
  | [] => .nil
  | statement :: rest => nesting statement ++ nestingAll rest

/-- The nodes that further conditions and a last clause place. -/
def nestingClauses : List (ElifClause Node) → Forest Node → Forest Node
  | [], last => last
  | ⟨cond, body⟩ :: rest, last => .tree cond (nestingAll body ++ nestingClauses rest last) .nil

/-- The nodes that an `else` node places. Any node with a body can stand in its place. -/
def nestingOrelse : Option Node → Forest Node
  | some ⟨.elseClause body, location⟩ =>
      nestingClause ⟨.elseClause body, location⟩ (nestingAll body) body.isEmpty
  | some ⟨.module code, location⟩ =>
      nestingClause ⟨.module code, location⟩ (nestingAll code) code.isEmpty
  | some ⟨.definition name params body decorators, location⟩ =>
      nestingClause ⟨.definition name params body decorators, location⟩ (nestingAll body)
        body.isEmpty
  | some ⟨.classDefinition name bases body decorators, location⟩ =>
      nestingClause ⟨.classDefinition name bases body decorators, location⟩ (nestingAll body)
        body.isEmpty
  | _ => .nil

/-- The nodes that handlers place: the binding of a name or a type, and the body. -/
def nestingHandlers : List (ExceptHandler Node) → Forest Node
  | [] => .nil
  | ⟨some cond, some name, body, location⟩ :: rest =>
      .tree (.binding [⟨.name name, location⟩] [cond] location) .nil (nestingAll body) ++
        nestingHandlers rest
  | ⟨some cond, none, body, _⟩ :: rest => nesting cond ++ nestingAll body ++ nestingHandlers rest
  | ⟨none, _, body, _⟩ :: rest => nestingAll body ++ nestingHandlers rest

end

end Node

namespace Command

mutual

/-- The nodes that a command places. -/
def nesting : Command → Forest Node
  | .place statement => .tree statement .nil .nil
  | .jump _ statement => .tree statement .nil .nil
  | .branch cond body rest => .tree cond (nestingAll body ++ nestingAlternatives rest) .nil
  | .loop _ head _ body orelse => .tree head (nestingAll body) (nestingAll orelse)
  | .bracket bindings body => .leaves bindings ++ nestingAll body
  | .guarded body handlers orelse finalbody =>
      nestingAll body ++ (nestingHandlers handlers ++ (nestingAll orelse ++ nestingAll finalbody))

def nestingAll : List Command → Forest Node
  | [] => .nil
  | command :: rest => nesting command ++ nestingAll rest

def nestingAlternatives : Alternatives → Forest Node
  | .none => .nil
  | .further cond body rest => .tree cond (nestingAll body ++ nestingAlternatives rest) .nil
  | .otherwise header body => .tree header .nil (nestingAll body)

def nestingHandlers : List (List Command) → Forest Node
  | [] => .nil
  | handler :: rest => nestingAll handler ++ nestingHandlers rest

end

theorem nestingAlternatives_ofClause (header : Node) (statements : List Node) :
    nestingAlternatives (.ofClause header (ofNodes statements)) =
      Node.nestingClause header (nestingAll (ofNodes statements)) statements.isEmpty := by
  rw [Alternatives.ofClause, Node.nestingClause, isEmpty_ofNodes]
  split <;> rfl

mutual

/-- The command of a statement places the same nodes as the statement. -/
theorem nesting_ofNode : (statement : Node) → nesting (ofNode statement) = statement.nesting
  | ⟨shape, location⟩ => by
      cases shape
      case conditional cond body elifs orelse =>
        simp only [ofNode, nesting, Node.nesting]
        rw [nestingAll_ofNodes body, nestingAlternatives_ofClauses elifs,
          nestingAlternatives_ofOrelse orelse]
      case whileLoop cond body orelse =>
        simp only [ofNode, nesting, Node.nesting]
        rw [nestingAll_ofNodes body, nestingAll_ofNodes orelse]
      case forLoop targets iter body orelse declLocation =>
        simp only [ofNode, nesting, Node.nesting]
        rw [nestingAll_ofNodes body, nestingAll_ofNodes orelse]
      case withBlock items body =>
        simp only [ofNode, nesting, Node.nesting]
        rw [nestingAll_ofNodes body]
      case tryBlock body handlers orelse finalbody =>
        simp only [ofNode, nesting, Node.nesting]
        rw [nestingAll_ofNodes body, nestingHandlers_ofHandlers handlers,
          nestingAll_ofNodes orelse, nestingAll_ofNodes finalbody]
      all_goals rfl

theorem nestingAll_ofNodes : (statements : List Node) →
    nestingAll (ofNodes statements) = Node.nestingAll statements
  | [] => rfl
  | statement :: rest => by
      rw [ofNodes, nestingAll, Node.nestingAll, nesting_ofNode statement, nestingAll_ofNodes rest]

theorem nestingAlternatives_ofClauses : (elifs : List (ElifClause Node)) → (last : Alternatives) →
    nestingAlternatives (ofClauses elifs last) =
      Node.nestingClauses elifs (nestingAlternatives last)
  | [], last => rfl
  | ⟨cond, body⟩ :: rest, last => by
      rw [ofClauses, nestingAlternatives, Node.nestingClauses, nestingAll_ofNodes body,
        nestingAlternatives_ofClauses rest last]

theorem nestingAlternatives_ofOrelse : (orelse : Option Node) →
    nestingAlternatives (ofOrelse orelse) = Node.nestingOrelse orelse
  | none => rfl
  | some ⟨shape, location⟩ => by
      cases shape
      case elseClause body =>
        rw [ofOrelse, Node.nestingOrelse, nestingAlternatives_ofClause, nestingAll_ofNodes body]
      case module code =>
        rw [ofOrelse, Node.nestingOrelse, nestingAlternatives_ofClause, nestingAll_ofNodes code]
      case definition name params body decorators =>
        rw [ofOrelse, Node.nestingOrelse, nestingAlternatives_ofClause, nestingAll_ofNodes body]
      case classDefinition name bases body decorators =>
        rw [ofOrelse, Node.nestingOrelse, nestingAlternatives_ofClause, nestingAll_ofNodes body]
      all_goals rfl

theorem nestingHandlers_ofHandlers : (handlers : List (ExceptHandler Node)) →
    nestingHandlers (ofHandlers handlers) = Node.nestingHandlers handlers
  | [] => rfl
  | ⟨some cond, some name, body, location⟩ :: rest => by
      simp only [ofHandlers, nestingHandlers, nestingAll, nesting, Node.nestingHandlers]
      rw [nestingAll_ofNodes body, nestingHandlers_ofHandlers rest]
      rfl
  | ⟨some cond, none, body, location⟩ :: rest => by
      simp only [ofHandlers, nestingHandlers, nestingAll, Node.nestingHandlers]
      rw [nesting_ofNode cond, nestingAll_ofNodes body, nestingHandlers_ofHandlers rest]
  | ⟨none, name, body, location⟩ :: rest => by
      simp only [ofHandlers, nestingHandlers, Node.nestingHandlers]
      rw [nestingAll_ofNodes body, nestingHandlers_ofHandlers rest]

end

/-! ### Without jumps -/

mutual

/-- Neither jumps nor `try` statements. -/
def FallsThrough : Command → Prop
  | .place _ => True
  | .jump .. => False
  | .branch _ body rest => AllFallThrough body ∧ AlternativesFallThrough rest
  | .loop _ _ _ body orelse => AllFallThrough body ∧ AllFallThrough orelse
  | .bracket _ body => AllFallThrough body
  | .guarded .. => False

def AllFallThrough : List Command → Prop
  | [] => True
  | command :: rest => FallsThrough command ∧ AllFallThrough rest

def AlternativesFallThrough : Alternatives → Prop
  | .none => True
  | .further _ body rest => AllFallThrough body ∧ AlternativesFallThrough rest
  | .otherwise _ body => AllFallThrough body

end

theorem alternativesFallThrough_ofClause {header : Node} {body : List Command}
    (falls : AllFallThrough body) : AlternativesFallThrough (.ofClause header body) := by
  rw [Alternatives.ofClause]
  split
  · trivial
  · exact falls

mutual

/-- Statements without jumps have commands without jumps. -/
theorem fallsThrough_ofNode : (statement : Node) →
    (∀ inner, Node.StandsIn [statement] inner → inner.FallsThrough) →
    FallsThrough (ofNode statement)
  | ⟨shape, location⟩, falls => by
      have self := falls _ (.here (List.mem_singleton_self _))
      have within : ∀ list ∈ Node.statementLists ⟨shape, location⟩, ∀ inner,
          Node.StandsIn list inner → inner.FallsThrough := by
        intro list runs inner stands
        exact falls inner (stands.mono fun _ => .within (.here (List.mem_singleton_self _)) runs)
      cases shape
      case conditional cond body elifs orelse =>
        rw [ofNode]
        refine ⟨allFallThrough_ofNodes body (within _ (by simp [Node.statementLists])), ?_⟩
        refine alternativesFallThrough_ofClauses elifs _ ?_
          (alternativesFallThrough_ofOrelse orelse ?_)
        · intro clause member
          apply within
          simp only [Node.statementLists, List.mem_cons, List.mem_append, List.mem_map]
          exact .inr (.inl ⟨clause, member, rfl⟩)
        · intro node isElse
          apply within
          simp only [Node.statementLists, List.mem_cons, List.mem_append, List.mem_map]
          exact .inr (.inr ⟨node, by simpa using isElse, rfl⟩)
      case whileLoop cond body orelse =>
        exact ⟨allFallThrough_ofNodes body (within _ (by simp [Node.statementLists])),
          allFallThrough_ofNodes orelse (within _ (by simp [Node.statementLists]))⟩
      case forLoop targets iter body orelse declLocation =>
        exact ⟨allFallThrough_ofNodes body (within _ (by simp [Node.statementLists])),
          allFallThrough_ofNodes orelse (within _ (by simp [Node.statementLists]))⟩
      case withBlock items body =>
        exact allFallThrough_ofNodes body (within _ (by simp [Node.statementLists]))
      case tryBlock | raiseError | breakLoop | continueLoop => exact self.elim
      all_goals trivial

theorem allFallThrough_ofNodes : (statements : List Node) →
    (∀ inner, Node.StandsIn statements inner → inner.FallsThrough) →
    AllFallThrough (ofNodes statements)
  | [], _ => trivial
  | statement :: rest, falls => by
      refine ⟨fallsThrough_ofNode statement ?_, allFallThrough_ofNodes rest ?_⟩
      · intro inner stands
        exact falls inner (stands.mono fun other member =>
          .here (List.mem_cons.2 (.inl (List.mem_singleton.1 member))))
      · intro inner stands
        exact falls inner (stands.mono fun other member => .here (List.mem_cons_of_mem _ member))

theorem alternativesFallThrough_ofClauses : (elifs : List (ElifClause Node)) →
    (last : Alternatives) → (∀ clause ∈ elifs, ∀ inner, Node.StandsIn clause.body inner →
      inner.FallsThrough) → AlternativesFallThrough last →
    AlternativesFallThrough (ofClauses elifs last)
  | [], _, _, lastFalls => lastFalls
  | ⟨_, body⟩ :: rest, last, falls, lastFalls =>
      ⟨allFallThrough_ofNodes body (falls _ List.mem_cons_self),
        alternativesFallThrough_ofClauses rest last
          (fun clause member => falls clause (List.mem_cons_of_mem _ member)) lastFalls⟩

theorem alternativesFallThrough_ofOrelse : (orelse : Option Node) →
    (∀ node ∈ orelse, ∀ inner, Node.StandsIn node.body inner → inner.FallsThrough) →
    AlternativesFallThrough (ofOrelse orelse)
  | none, _ => trivial
  | some ⟨shape, location⟩, falls => by
      have inBody := falls _ rfl
      cases shape
      case elseClause body =>
        exact alternativesFallThrough_ofClause (allFallThrough_ofNodes body inBody)
      case module code =>
        exact alternativesFallThrough_ofClause (allFallThrough_ofNodes code inBody)
      case definition name params body decorators =>
        exact alternativesFallThrough_ofClause (allFallThrough_ofNodes body inBody)
      case classDefinition name bases body decorators =>
        exact alternativesFallThrough_ofClause (allFallThrough_ofNodes body inBody)
      all_goals trivial

end

end Command

end FlowAnalysis
