import FlowAnalysis.Proofs.ControlFlow.Laying
import FlowAnalysis.Proofs.ControlFlow.Realization

/-!
# Structured executions

`Node.Runs` gives the executions of a statement by rules on the tree, one for each way in which a
control statement may go; it knows neither commands nor graphs. For trees without `return` and
without `finally` clauses, which the graph treats in its own way, `Graph.path_iff_run` says that the
complete paths of the graph meet exactly the statements that structured executions meet.
-/

namespace FlowAnalysis

/-- The statements of a handler: the binding of its name, or its type alone, and then its body. -/
def ExceptHandler.statements (handler : ExceptHandler Node) : List Node :=
  match handler.cond, handler.name with
  | some cond, some name =>
      .binding [⟨.name name, handler.location⟩] [cond] handler.location :: handler.body
  | some cond, none => cond :: handler.body
  | none, _ => handler.body

namespace Node

/-- The lists of statements that a control statement runs. -/
def statementLists (statement : Node) : List (List Node) :=
  match statement.shape with
  | .conditional _ body elifs orelse =>
      body :: (elifs.map ElifClause.body ++ orelse.toList.map Node.body)
  | .whileLoop _ body orelse => [body, orelse]
  | .forLoop _ _ body orelse _ => [body, orelse]
  | .withBlock _ body => [body]
  | .tryBlock body handlers orelse finalbody =>
      body :: (handlers.map ExceptHandler.statements ++ [orelse, finalbody])
  | _ => []

/-- A statement stands in a list or in one of the lists that a statement standing there runs. -/
inductive StandsIn (statements : List Node) : Node → Prop where
  | here {statement : Node} (member : statement ∈ statements) : StandsIn statements statement
  | within {parent statement : Node} {list : List Node} (outer : StandsIn statements parent)
      (runs : list ∈ parent.statementLists) (member : statement ∈ list) :
      StandsIn statements statement

theorem StandsIn.mono {statements statements' : List Node} {inner : Node}
    (stands : StandsIn statements' inner)
    (outer : ∀ statement ∈ statements', StandsIn statements statement) :
    StandsIn statements inner := by
  induction stands with
  | here member => exact outer _ member
  | within _ runs member ih => exact .within ih runs member

/-- Neither a `return` nor a `try` with a `finally` clause. -/
def Structured (statement : Node) : Prop :=
  match statement.shape with
  | .returnValues _ => False
  | .tryBlock _ _ _ finalbody => finalbody = []
  | _ => True

/-- A statement without control structure, after which the next one runs. -/
def Straight (statement : Node) : Prop :=
  match statement.shape with
  | .conditional .. | .whileLoop .. | .forLoop .. | .withBlock .. | .tryBlock .. | .raiseError _
  | .breakLoop | .continueLoop | .returnValues _ => False
  | _ => True

mutual

/-- A statement runs: the statements met, its own included, and how the run ends. -/
inductive Runs : Node → List Node → Outcome → Prop where
  | straight {statement : Node} (isStraight : statement.Straight) :
      Runs statement [statement] .finished
  | raiseError {error : Option Node} {location : Location} :
      Runs ⟨.raiseError error, location⟩ [⟨.raiseError error, location⟩] (.jumped .raising)
  | breakLoop {location : Location} :
      Runs ⟨.breakLoop, location⟩ [⟨.breakLoop, location⟩] (.jumped .breaking)
  | continueLoop {location : Location} :
      Runs ⟨.continueLoop, location⟩ [⟨.continueLoop, location⟩] (.jumped .continuing)
  | conditionalHolds {cond : Node} {body : List Node} {elifs : List (ElifClause Node)}
      {orelse : Option Node} {location : Location} {trace : List Node} {outcome : Outcome}
      (bodyRuns : RunsAll body trace outcome) :
      Runs ⟨.conditional cond body elifs orelse, location⟩ (cond :: trace) outcome
  | conditionalFails {cond : Node} {body : List Node} {elifs : List (ElifClause Node)}
      {orelse : Option Node} {location : Location} {trace : List Node} {outcome : Outcome}
      (restRuns : RunsClauses elifs orelse trace outcome) :
      Runs ⟨.conditional cond body elifs orelse, location⟩ (cond :: trace) outcome
  | whileLoop {cond : Node} {body orelse : List Node} {location : Location} {trace : List Node}
      {outcome : Outcome} (rounds : RunsRounds cond body orelse trace outcome) :
      Runs ⟨.whileLoop cond body orelse, location⟩ trace outcome
  | forLoop {targets iter body orelse : List Node} {declLocation location : Location}
      {trace : List Node} {outcome : Outcome}
      (rounds : RunsRounds (.binding targets iter declLocation) body orelse trace outcome) :
      Runs ⟨.forLoop targets iter body orelse declLocation, location⟩ trace outcome
  | withBlock {items : List (WithItem Node)} {body : List Node} {location : Location}
      {trace : List Node} {outcome : Outcome} (bodyRuns : RunsAll body trace outcome) :
      Runs ⟨.withBlock items body, location⟩ (items.map WithItem.placed ++ trace) outcome
  | tryPasses {body orelse : List Node} {handlers : List (ExceptHandler Node)}
      {location : Location} {before after : List Node} {outcome : Outcome}
      (bodyRuns : RunsAll body before .finished) (elseRuns : RunsAll orelse after outcome) :
      Runs ⟨.tryBlock body handlers orelse [], location⟩ (before ++ after) outcome
  | tryHandled {body orelse : List Node} {handlers : List (ExceptHandler Node)}
      {handler : ExceptHandler Node} {location : Location} {before after : List Node}
      {bodyOutcome outcome : Outcome} (bodyRuns : RunsAll body before bodyOutcome)
      (caught : bodyOutcome = .finished ∨ bodyOutcome = .jumped .raising)
      (isHandler : handler ∈ handlers) (handlerRuns : RunsAll handler.statements after outcome) :
      Runs ⟨.tryBlock body handlers orelse [], location⟩ (before ++ after) outcome
  | tryUnhandled {body orelse : List Node} {location : Location} {trace : List Node}
      (bodyRuns : RunsAll body trace (.jumped .raising)) :
      Runs ⟨.tryBlock body [] orelse [], location⟩ trace (.jumped .raising)
  | tryLeft {body orelse : List Node} {handlers : List (ExceptHandler Node)}
      {location : Location} {trace : List Node} {jump : Jump}
      (bodyRuns : RunsAll body trace (.jumped jump)) (notRaising : jump ≠ .raising) :
      Runs ⟨.tryBlock body handlers orelse [], location⟩ trace (.jumped jump)

/-- Statements run one after the other until one of them jumps. -/
inductive RunsAll : List Node → List Node → Outcome → Prop where
  | nil : RunsAll [] [] .finished
  | cons {statement : Node} {rest before after : List Node} {outcome : Outcome}
      (runs : Runs statement before .finished) (restRuns : RunsAll rest after outcome) :
      RunsAll (statement :: rest) (before ++ after) outcome
  | jumped {statement : Node} {rest trace : List Node} {jump : Jump}
      (runs : Runs statement trace (.jumped jump)) :
      RunsAll (statement :: rest) trace (.jumped jump)

/-- What comes after a condition that does not hold: the further conditions in order, and at last
the node of a non-empty `else` clause with the clause. -/
inductive RunsClauses : List (ElifClause Node) → Option Node → List Node → Outcome → Prop where
  | holds {cond : Node} {body : List Node} {rest : List (ElifClause Node)} {orelse : Option Node}
      {trace : List Node} {outcome : Outcome} (bodyRuns : RunsAll body trace outcome) :
      RunsClauses (⟨cond, body⟩ :: rest) orelse (cond :: trace) outcome
  | fails {cond : Node} {body : List Node} {rest : List (ElifClause Node)} {orelse : Option Node}
      {trace : List Node} {outcome : Outcome} (restRuns : RunsClauses rest orelse trace outcome) :
      RunsClauses (⟨cond, body⟩ :: rest) orelse (cond :: trace) outcome
  | otherwise {node : Node} {trace : List Node} {outcome : Outcome} (someBody : node.body ≠ [])
      (bodyRuns : RunsAll node.body trace outcome) :
      RunsClauses [] (some node) (node :: trace) outcome
  | nothing {orelse : Option Node} (noBody : ∀ node ∈ orelse, node.body = []) :
      RunsClauses [] orelse [] .finished

/-- The rounds of a loop: its head is met before each of them. The `else` clause runs when the loop
is left through the head, and a `break` or `continue` in it is not one of this loop. -/
inductive RunsRounds : Node → List Node → List Node → List Node → Outcome → Prop where
  | left {head : Node} {body orelse trace : List Node} {outcome : Outcome}
      (elseRuns : RunsAll orelse trace outcome) :
      RunsRounds head body orelse (head :: trace) outcome
  | broken {head : Node} {body orelse trace : List Node}
      (bodyRuns : RunsAll body trace (.jumped .breaking)) :
      RunsRounds head body orelse (head :: trace) .finished
  | raised {head : Node} {body orelse trace : List Node}
      (bodyRuns : RunsAll body trace (.jumped .raising)) :
      RunsRounds head body orelse (head :: trace) (.jumped .raising)
  | again {head : Node} {body orelse trace later : List Node} {bodyOutcome outcome : Outcome}
      (bodyRuns : RunsAll body trace bodyOutcome)
      (goesOn : bodyOutcome = .finished ∨ bodyOutcome = .jumped .continuing)
      (rest : RunsRounds head body orelse later outcome) :
      RunsRounds head body orelse (head :: (trace ++ later)) outcome

end

end Node

namespace Command

open Executions Node

/-! ### The commands of a tree -/

theorem ofNode_of_straight {statement : Node} (isStraight : statement.Straight) :
    ofNode statement = .place statement := by
  rcases statement with ⟨shape, location⟩
  cases shape <;> first | exact isStraight.elim | rfl

theorem isEmpty_ofNodes (statements : List Node) :
    (ofNodes statements).isEmpty = statements.isEmpty := by
  cases statements <;> rfl

theorem ofOrelse_some (node : Node) : ofOrelse (some node) = .ofClause node (ofNodes node.body) := by
  rcases node with ⟨shape, location⟩
  cases shape <;> rfl

theorem ofHandlers_eq_map (handlers : List (ExceptHandler Node)) :
    ofHandlers handlers = handlers.map fun handler => ofNodes handler.statements := by
  induction handlers with
  | nil => rfl
  | cons handler rest ih =>
      rcases handler with ⟨cond, name, body, location⟩
      cases cond <;> cases name <;> simp [ofHandlers, ExceptHandler.statements, ofNodes, ih]
      rfl

theorem isEmpty_ofHandlers (handlers : List (ExceptHandler Node)) :
    (ofHandlers handlers).isEmpty = handlers.isEmpty := by
  rw [ofHandlers_eq_map]
  cases handlers <;> rfl

theorem someExecutes_iff {handlers : List (List Command)} {trace : List Node} {outcome : Outcome} :
    SomeExecutes handlers trace outcome ↔
      ∃ handler ∈ handlers, AllExecute handler trace outcome := by
  induction handlers with
  | nil => simp [SomeExecutes]
  | cons handler rest ih => simp [SomeExecutes, either, ih]

theorem someExecutes_of_mem {handlers : List (ExceptHandler Node)} {handler : ExceptHandler Node}
    {trace : List Node} {outcome : Outcome} (isHandler : handler ∈ handlers)
    (executed : AllExecute (ofNodes handler.statements) trace outcome) :
    SomeExecutes (ofHandlers handlers) trace outcome := by
  rw [someExecutes_iff, ofHandlers_eq_map]
  exact ⟨_, List.mem_map_of_mem isHandler, executed⟩

theorem alternativesExecute_of_runsOtherwise {node : Node} {trace : List Node} {outcome : Outcome}
    (someBody : node.body ≠ []) (executed : AllExecute (ofNodes node.body) trace outcome) :
    AlternativesExecute (ofOrelse (some node)) (node :: trace) outcome := by
  rw [ofOrelse_some, Alternatives.ofClause, isEmpty_ofNodes, List.isEmpty_eq_false_iff.2 someBody,
    if_neg Bool.false_ne_true]
  exact .intro executed

theorem ofOrelse_of_forall {orelse : Option Node} (noBody : ∀ node ∈ orelse, node.body = []) :
    ofOrelse orelse = .none := by
  cases orelse with
  | none => rfl
  | some node =>
      rw [ofOrelse_some, noBody node rfl]
      rfl

theorem executes_tryBlock {body orelse : List Node} {handlers : List (ExceptHandler Node)}
    {location : Location} {trace : List Node} {outcome : Outcome}
    (executed : Guarded (AllExecute (ofNodes body))
      (if handlers.isEmpty then none else some (SomeExecutes (ofHandlers handlers)))
      (AllExecute (ofNodes orelse)) trace outcome) :
    Executes (ofNode ⟨.tryBlock body handlers orelse [], location⟩) trace outcome := by
  rw [ofNode, Executes, isEmpty_ofHandlers]
  cases outcome with
  | finished =>
      rw [← List.append_nil trace]
      exact .finished executed ⟨rfl, rfl⟩
  | jumped jump => exact .jumped executed

mutual

theorem executes_of_runs {statement : Node} {trace : List Node} {outcome : Outcome} :
    Runs statement trace outcome → Executes (ofNode statement) trace outcome
  | .straight isStraight => by
      rw [ofNode_of_straight isStraight]
      exact ⟨rfl, rfl⟩
  | .raiseError => ⟨rfl, rfl⟩
  | .breakLoop => ⟨rfl, rfl⟩
  | .continueLoop => ⟨rfl, rfl⟩
  | .conditionalHolds bodyRuns => by
      have executed := allExecute_of_runsAll bodyRuns
      exact .intro (.inl executed)
  | .conditionalFails restRuns => by
      have executed := alternativesExecute_of_runsClauses restRuns
      exact .intro (.inr executed)
  | .whileLoop rounds => rounds_of_runsRounds rounds
  | .forLoop rounds => rounds_of_runsRounds rounds
  | .withBlock bodyRuns => .intro (allExecute_of_runsAll bodyRuns)
  | .tryPasses bodyRuns elseRuns =>
      executes_tryBlock (.passed (allExecute_of_runsAll bodyRuns) (allExecute_of_runsAll elseRuns))
  | .tryHandled bodyRuns caught isHandler handlerRuns => by
      have executed := allExecute_of_runsAll handlerRuns
      refine executes_tryBlock (.handled (allExecute_of_runsAll bodyRuns) caught ?_
        (someExecutes_of_mem isHandler executed))
      rw [List.isEmpty_eq_false_iff.2 (List.ne_nil_of_mem isHandler), if_neg Bool.false_ne_true]
  | .tryUnhandled bodyRuns =>
      executes_tryBlock (.unhandled (allExecute_of_runsAll bodyRuns) rfl)
  | .tryLeft bodyRuns notRaising =>
      executes_tryBlock (.left (allExecute_of_runsAll bodyRuns) notRaising)

theorem allExecute_of_runsAll {statements trace : List Node} {outcome : Outcome} :
    RunsAll statements trace outcome → AllExecute (ofNodes statements) trace outcome
  | .nil => ⟨rfl, rfl⟩
  | .cons runs restRuns => .finished (executes_of_runs runs) (allExecute_of_runsAll restRuns)
  | .jumped runs => .jumped (executes_of_runs runs)

theorem alternativesExecute_of_runsClauses {elifs : List (ElifClause Node)}
    {orelse : Option Node} {trace : List Node} {outcome : Outcome} :
    RunsClauses elifs orelse trace outcome →
      AlternativesExecute (ofClauses elifs (ofOrelse orelse)) trace outcome
  | .holds bodyRuns => .intro (.inl (allExecute_of_runsAll bodyRuns))
  | .fails restRuns => .intro (.inr (alternativesExecute_of_runsClauses restRuns))
  | .otherwise someBody bodyRuns =>
      alternativesExecute_of_runsOtherwise someBody (allExecute_of_runsAll bodyRuns)
  | .nothing noBody => by
      rw [ofClauses, ofOrelse_of_forall noBody]
      exact ⟨rfl, rfl⟩

theorem rounds_of_runsRounds {head : Node} {body orelse trace : List Node} {outcome : Outcome} :
    RunsRounds head body orelse trace outcome →
      Rounds head (AllExecute (ofNodes body)) (AllExecute (ofNodes orelse)) trace outcome
  | .left elseRuns => .left (allExecute_of_runsAll elseRuns)
  | .broken bodyRuns => .broken (allExecute_of_runsAll bodyRuns)
  | .raised bodyRuns => .raised (allExecute_of_runsAll bodyRuns)
  | .again bodyRuns goesOn rest =>
      .again (allExecute_of_runsAll bodyRuns) goesOn (rounds_of_runsRounds rest)

end

/-! ### The runs of a tree -/

/-- Everything that stands in a list is structured. -/
def AllStructured (statements : List Node) : Prop :=
  ∀ statement, StandsIn statements statement → statement.Structured

namespace AllStructured

variable {statement : Node} {rest : List Node}

theorem mono {statements statements' : List Node}
    (stands : ∀ inner ∈ statements', StandsIn statements inner)
    (structured : AllStructured statements) : AllStructured statements' :=
  fun inner standsIn => structured inner (standsIn.mono stands)

theorem head (structured : AllStructured (statement :: rest)) : AllStructured [statement] :=
  structured.mono fun _ member => .here (List.mem_cons.2 (.inl (List.mem_singleton.1 member)))

theorem tail (structured : AllStructured (statement :: rest)) : AllStructured rest :=
  structured.mono fun _ member => .here (List.mem_cons_of_mem _ member)

theorem self (structured : AllStructured [statement]) : statement.Structured :=
  structured statement (.here (List.mem_singleton_self _))

theorem inner (structured : AllStructured [statement]) {list : List Node}
    (runs : list ∈ statement.statementLists) : AllStructured list :=
  structured.mono fun _ member => .within (.here (List.mem_singleton_self _)) runs member

end AllStructured

theorem runsRounds_of_rounds {head : Node} {body orelse trace : List Node} {outcome : Outcome}
    (bodyRuns : ∀ ⦃trace outcome⦄, AllExecute (ofNodes body) trace outcome →
      RunsAll body trace outcome)
    (elseRuns : ∀ ⦃trace outcome⦄, AllExecute (ofNodes orelse) trace outcome →
      RunsAll orelse trace outcome)
    (rounds : Rounds head (AllExecute (ofNodes body)) (AllExecute (ofNodes orelse)) trace
      outcome) : RunsRounds head body orelse trace outcome := by
  induction rounds with
  | left otherwise => exact .left (elseRuns otherwise)
  | broken breaks => exact .broken (bodyRuns breaks)
  | raised raises => exact .raised (bodyRuns raises)
  | again round goesOn _ ih => exact .again (bodyRuns round) goesOn ih

theorem runs_of_executes_tryBlock {body orelse : List Node} {handlers : List (ExceptHandler Node)}
    {location : Location} {trace : List Node} {outcome : Outcome}
    (bodyRuns : ∀ ⦃trace outcome⦄, AllExecute (ofNodes body) trace outcome →
      RunsAll body trace outcome)
    (handlerRuns : ∀ ⦃trace outcome⦄, SomeExecutes (ofHandlers handlers) trace outcome →
      ∃ handler ∈ handlers, RunsAll handler.statements trace outcome)
    (elseRuns : ∀ ⦃trace outcome⦄, AllExecute (ofNodes orelse) trace outcome →
      RunsAll orelse trace outcome)
    (executed : Executes (ofNode ⟨.tryBlock body handlers orelse [], location⟩) trace outcome) :
    Runs ⟨.tryBlock body handlers orelse [], location⟩ trace outcome := by
  rw [ofNode, Executes, isEmpty_ofHandlers] at executed
  have guarded : Guarded (AllExecute (ofNodes body))
      (if handlers.isEmpty then none else some (SomeExecutes (ofHandlers handlers)))
      (AllExecute (ofNodes orelse)) trace outcome := by
    rcases executed with ⟨executed, ⟨rfl, rfl⟩⟩ | executed
    · rwa [List.append_nil]
    · exact executed
  rcases guarded with ⟨bodyEnds, elsed⟩ | ⟨bodyEnds, caught, isGuarded, handled⟩ |
    ⟨raises, unguarded⟩ | ⟨leaves, notRaising⟩
  · exact .tryPasses (bodyRuns bodyEnds) (elseRuns elsed)
  · split at isGuarded
    · cases isGuarded
    · rcases Option.some.inj isGuarded with rfl
      rcases handlerRuns handled with ⟨handler, isHandler, runs⟩
      exact .tryHandled (bodyRuns bodyEnds) caught isHandler runs
  · split at unguarded
    · next empty =>
        rcases List.isEmpty_iff.1 empty with rfl
        exact .tryUnhandled (bodyRuns raises)
    · cases unguarded
  · exact .tryLeft (bodyRuns leaves) notRaising

theorem runsClauses_of_ofOrelse {orelse : Option Node} {trace : List Node} {outcome : Outcome}
    (bodyRuns : ∀ node ∈ orelse, ∀ ⦃trace outcome⦄,
      AllExecute (ofNodes node.body) trace outcome → RunsAll node.body trace outcome)
    (executed : AlternativesExecute (ofOrelse orelse) trace outcome) :
    RunsClauses [] orelse trace outcome := by
  cases orelse with
  | none =>
      rcases executed with ⟨rfl, rfl⟩
      exact .nothing (by simp)
  | some node =>
      by_cases noBody : node.body = []
      · have nothing : ∀ node' ∈ some node, node'.body = [] := by simpa using noBody
        rw [ofOrelse_of_forall nothing] at executed
        rcases executed with ⟨rfl, rfl⟩
        exact .nothing nothing
      · rw [ofOrelse_some, Alternatives.ofClause, isEmpty_ofNodes,
          List.isEmpty_eq_false_iff.2 noBody, if_neg Bool.false_ne_true] at executed
        rcases executed with ⟨executed⟩
        exact .otherwise noBody (bodyRuns node rfl executed)

/-- An execution of a statement without statements beneath it. -/
theorem runs_of_executes_leaf {statement : Node} (structured : statement.Structured)
    (leaf : statement.statementLists = []) {trace : List Node} {outcome : Outcome}
    (executed : Executes (ofNode statement) trace outcome) : Runs statement trace outcome := by
  rcases statement with ⟨shape, location⟩
  cases shape
  case returnValues => exact structured.elim
  case conditional | whileLoop | forLoop | withBlock | tryBlock => simp [statementLists] at leaf
  case raiseError =>
    rcases executed with ⟨rfl, rfl⟩
    exact .raiseError
  case breakLoop =>
    rcases executed with ⟨rfl, rfl⟩
    exact .breakLoop
  case continueLoop =>
    rcases executed with ⟨rfl, rfl⟩
    exact .continueLoop
  all_goals
    rcases executed with ⟨rfl, rfl⟩
    exact .straight trivial

/-- Every execution of the command of a structured statement is a run of the statement. -/
def Faithful (statement : Node) : Prop :=
  AllStructured [statement] → ∀ ⦃trace : List Node⦄ ⦃outcome : Outcome⦄,
    Executes (ofNode statement) trace outcome → Runs statement trace outcome

theorem runsAll_of_allExecute {statements trace : List Node} {outcome : Outcome}
    (faithful : ∀ statement ∈ statements, Faithful statement)
    (structured : AllStructured statements)
    (executed : AllExecute (ofNodes statements) trace outcome) :
    RunsAll statements trace outcome := by
  induction statements generalizing trace with
  | nil =>
      rcases executed with ⟨rfl, rfl⟩
      exact .nil
  | cons statement rest ih =>
      have runs := faithful statement (List.mem_cons_self ..) structured.head
      have restFaithful : ∀ statement ∈ rest, Faithful statement :=
        fun inner member => faithful inner (List.mem_cons_of_mem _ member)
      rcases executed with ⟨executed, restExecuted⟩ | executed
      · exact .cons (runs executed) (ih restFaithful structured.tail restExecuted)
      · exact .jumped (runs executed)

theorem runsClauses_of_alternativesExecute {elifs : List (ElifClause Node)} {orelse : Option Node}
    {trace : List Node} {outcome : Outcome}
    (clauseRuns : ∀ clause ∈ elifs, ∀ ⦃trace outcome⦄,
      AllExecute (ofNodes clause.body) trace outcome → RunsAll clause.body trace outcome)
    (elseRuns : ∀ node ∈ orelse, ∀ ⦃trace outcome⦄,
      AllExecute (ofNodes node.body) trace outcome → RunsAll node.body trace outcome)
    (executed : AlternativesExecute (ofClauses elifs (ofOrelse orelse)) trace outcome) :
    RunsClauses elifs orelse trace outcome := by
  induction elifs generalizing trace with
  | nil => exact runsClauses_of_ofOrelse elseRuns executed
  | cons clause rest ih =>
      rcases clause with ⟨cond, body⟩
      rcases executed with ⟨executed | executed⟩
      · exact .holds (clauseRuns ⟨cond, body⟩ (List.mem_cons_self ..) executed)
      · refine .fails (ih ?_ executed)
        exact fun clause member => clauseRuns clause (List.mem_cons_of_mem _ member)

theorem mem_children_of_mem_body {node inner : Node} (member : inner ∈ node.body) :
    inner ∈ node.children := by
  rcases node with ⟨shape, location⟩
  cases shape <;>
    simp_all [Node.body, Node.children, Shape.children, Shape.fields, Field.subtrees]

/-- A statement beneath another one is smaller, unless it is a binding of its own. -/
theorem straight_or_sizeOf_lt {statement inner : Node} {list : List Node}
    (runs : list ∈ statement.statementLists) (member : inner ∈ list) :
    inner.Straight ∨ sizeOf inner < sizeOf statement := by
  have ofChild : inner ∈ statement.children → inner.Straight ∨ sizeOf inner < sizeOf statement :=
    fun isChild => .inr (sizeOf_lt_of_mem_children isChild)
  rcases statement with ⟨shape, location⟩
  cases shape
  case conditional cond body elifs orelse =>
    simp only [statementLists, List.mem_cons, List.mem_append, List.mem_map,
      Option.mem_toList] at runs
    rcases runs with rfl | ⟨clause, clauseMem, rfl⟩ | ⟨node, isNode, rfl⟩
    · exact ofChild (by simp [Node.children, Shape.children, Shape.fields, Field.subtrees, member])
    · refine ofChild ?_
      simp only [Node.children, Shape.children, Shape.fields, List.flatMap_cons, Field.subtrees,
        List.mem_append, List.mem_flatMap]
      exact .inr (.inr (.inl ⟨clause, clauseMem, List.mem_cons_of_mem _ member⟩))
    · rcases Option.mem_def.1 isNode with rfl
      have smaller := sizeOf_lt_of_mem_children (mem_children_of_mem_body member)
      right
      simp
      omega
  case whileLoop cond body orelse =>
    refine ofChild ?_
    simp only [statementLists, List.mem_pair] at runs
    rcases runs with rfl | rfl <;>
      simp [Node.children, Shape.children, Shape.fields, Field.subtrees, member]
  case forLoop targets iter body orelse declLocation =>
    refine ofChild ?_
    simp only [statementLists, List.mem_pair] at runs
    rcases runs with rfl | rfl <;>
      simp [Node.children, Shape.children, Shape.fields, Field.subtrees, member]
  case withBlock items body =>
    refine ofChild ?_
    simp only [statementLists, List.mem_singleton] at runs
    subst runs
    simp [Node.children, Shape.children, Shape.fields, Field.subtrees, member]
  case tryBlock body handlers orelse finalbody =>
    simp only [statementLists, List.mem_cons, List.mem_append, List.mem_map, List.not_mem_nil,
      or_false] at runs
    rcases runs with rfl | ⟨handler, handlerMem, rfl⟩ | rfl | rfl
    · exact ofChild (by simp [Node.children, Shape.children, Shape.fields, Field.subtrees, member])
    · have inHandler : inner.Straight ∨ inner ∈ handler.cond.toList ++ handler.body := by
        rcases handler with ⟨_ | cond, _ | name, body, location⟩ <;>
          simp only [ExceptHandler.statements, List.mem_cons] at member
        · exact .inr (by simp [member])
        · exact .inr (by simp [member])
        · exact .inr (by simp [member])
        · rcases member with rfl | member
          · exact .inl trivial
          · exact .inr (by simp [member])
      rcases inHandler with isStraight | inHandler
      · exact .inl isStraight
      · refine ofChild ?_
        simp only [Node.children, Shape.children, Shape.fields, List.flatMap_cons, Field.subtrees,
          List.mem_append, List.mem_flatMap]
        exact .inr (.inl ⟨handler, handlerMem, List.mem_append.1 inHandler⟩)
    · exact ofChild (by simp [Node.children, Shape.children, Shape.fields, Field.subtrees, member])
    · exact ofChild (by simp [Node.children, Shape.children, Shape.fields, Field.subtrees, member])
  all_goals simp [statementLists] at runs

theorem faithful (statement : Node) : Faithful statement := by
  intro structured trace outcome executed
  have inner : ∀ list ∈ statement.statementLists, ∀ ⦃trace outcome⦄,
      AllExecute (ofNodes list) trace outcome → RunsAll list trace outcome := by
    intro list runs trace outcome
    refine runsAll_of_allExecute ?_ (structured.inner runs)
    intro inner member
    rcases straight_or_sizeOf_lt runs member with isStraight | smaller
    · intro _ trace outcome executed
      rw [ofNode_of_straight isStraight] at executed
      rcases executed with ⟨rfl, rfl⟩
      exact .straight isStraight
    · exact faithful inner
  rcases statement with ⟨shape, location⟩
  cases shape
  case conditional cond body elifs orelse =>
    rcases executed with ⟨executed | executed⟩
    · exact .conditionalHolds (inner body (by simp [statementLists]) executed)
    · refine .conditionalFails (runsClauses_of_alternativesExecute ?_ ?_ executed)
      · intro clause clauseMem
        have listMem : clause.body ∈ elifs.map ElifClause.body := List.mem_map_of_mem clauseMem
        exact inner clause.body (by simp [statementLists, listMem])
      · intro node isNode
        rcases Option.mem_def.1 isNode with rfl
        exact inner node.body (by simp [statementLists])
  case whileLoop cond body orelse =>
    exact .whileLoop (runsRounds_of_rounds (inner body (by simp [statementLists]))
      (inner orelse (by simp [statementLists])) executed)
  case forLoop targets iter body orelse declLocation =>
    exact .forLoop (runsRounds_of_rounds (inner body (by simp [statementLists]))
      (inner orelse (by simp [statementLists])) executed)
  case withBlock items body =>
    rcases executed with ⟨executed⟩
    exact .withBlock (inner body (by simp [statementLists]) executed)
  case tryBlock body handlers orelse finalbody =>
    rcases structured.self with rfl
    refine runs_of_executes_tryBlock (inner body (by simp [statementLists])) ?_
      (inner orelse (by simp [statementLists])) executed
    intro trace outcome handled
    rw [someExecutes_iff, ofHandlers_eq_map] at handled
    rcases handled with ⟨_, handlerMem, executed⟩
    rcases List.mem_map.1 handlerMem with ⟨handler, isHandler, rfl⟩
    have listMem : handler.statements ∈ handlers.map ExceptHandler.statements :=
      List.mem_map_of_mem isHandler
    exact ⟨handler, isHandler, inner handler.statements (by simp [statementLists, listMem])
      executed⟩
  all_goals exact runs_of_executes_leaf structured.self rfl executed
termination_by sizeOf statement

end Command

theorem Node.runsAll_iff_allExecute {statements trace : List Node} {outcome : Outcome}
    (structured : Command.AllStructured statements) :
    Node.RunsAll statements trace outcome ↔
      Command.AllExecute (Command.ofNodes statements) trace outcome :=
  ⟨Command.allExecute_of_runsAll,
    Command.runsAll_of_allExecute (fun statement _ => Command.faithful statement) structured⟩

namespace Graph

/-- The complete paths through the graph of a module or function meet exactly the statements that
structured executions meet, and those that end with an exception lead to the exceptional exit. -/
theorem path_iff_run {root : Node} {graph : Graph} (built : ofRoot root = .ok graph)
    (structured : ∀ statement, Node.StandsIn root.body statement → statement.Structured)
    (trace : List Node) :
    ((∃ blocks target, graph.Path graph.entry blocks target ∧ graph.successors target = [] ∧
        graph.trace blocks = trace) ↔
      ∃ outcome, Node.RunsAll root.body trace outcome) ∧
    ((∃ blocks, graph.Path graph.entry blocks graph.exceptionalExit ∧
        graph.trace blocks = trace) ↔
      Node.RunsAll root.body trace (.jumped .raising)) := by
  have laid := ofRoot_laidOut built
  have runsIff : ∀ outcome, Node.RunsAll root.body trace outcome ↔
      Command.AllExecute (Command.ofNodes root.body) trace outcome :=
    fun outcome => Node.runsAll_iff_allExecute structured
  have exitLast : graph.successors graph.exceptionalExit = [] :=
    List.eq_nil_iff_forall_not_mem.2 fun target edge =>
      List.not_mem_nil ((laid.exit_leads target).1 edge)
  simp only [runsIff]
  constructor
  · constructor
    · rintro ⟨blocks, target, path, noEdge, traceEq⟩
      rcases laid.path_iff_execution.1 ⟨blocks, target, path, noEdge, traceEq, rfl⟩ with
        ⟨outcome, executed, -⟩
      exact ⟨outcome, executed⟩
    · rintro ⟨outcome, executed⟩
      have ends : decide (outcome = .jumped .raising) = true ↔ outcome = .jumped .raising := by simp
      rcases laid.path_iff_execution.2 ⟨outcome, executed, ends⟩ with
        ⟨blocks, target, path, noEdge, traceEq, -⟩
      exact ⟨blocks, target, path, noEdge, traceEq⟩
  · constructor
    · rintro ⟨blocks, path, traceEq⟩
      rcases laid.path_iff_execution.1 ⟨blocks, _, path, exitLast, traceEq, rfl⟩ with
        ⟨outcome, executed, ends⟩
      rwa [ends.1 (by simp)] at executed
    · intro executed
      have ends : true = true ↔ Outcome.jumped .raising = .jumped .raising := by simp
      rcases laid.path_iff_execution.2 ⟨_, executed, ends⟩ with
        ⟨blocks, target, path, noEdge, traceEq, isExit⟩
      rcases eq_of_beq isExit.symm with rfl
      exact ⟨blocks, path, traceEq⟩

/-- What a structured execution meets is met on some path. -/
theorem reaches_of_runsAll {statements earlier later : List Node} {statement : Node}
    {outcome : Outcome} (runs : Node.RunsAll statements (earlier ++ statement :: later) outcome) :
    (ofStatements statements).Reaches earlier statement := by
  have executed := Command.allExecute_of_runsAll runs
  have ends : decide (outcome = .jumped .raising) = true ↔ outcome = .jumped .raising := by simp
  rcases (ofCommands_laidOut _).path_iff_execution.2 ⟨outcome, executed, ends⟩ with
    ⟨blocks, target, path, -, traceEq, -⟩
  exact ⟨blocks, target, later, path, traceEq⟩

/-- A `raise` in a `try` with a handler that does nothing. -/
def handledRaise : Node :=
  ⟨.module [⟨.tryBlock [⟨.raiseError none, default⟩] [⟨none, none, [⟨.pass, default⟩], default⟩]
    [] [], default⟩], default⟩

theorem structured_of_standsIn_handledRaise {statement : Node}
    (stands : Node.StandsIn handledRaise.body statement) : statement.Structured := by
  have among : statement ∈ handledRaise.body ++ [⟨.raiseError none, default⟩, ⟨.pass, default⟩] := by
    induction stands with
    | here member => exact List.mem_append_left _ member
    | within _ runs member ih =>
        simp only [handledRaise, Node.body, List.cons_append, List.nil_append, List.mem_cons,
          List.not_mem_nil, or_false] at ih
        rcases ih with rfl | rfl | rfl
        · simp only [Node.statementLists, ExceptHandler.statements, List.map_cons, List.map_nil,
            List.cons_append, List.nil_append, List.mem_cons, List.not_mem_nil, or_false] at runs
          rcases runs with rfl | rfl | rfl | rfl <;> simp_all [handledRaise, Node.body]
        · simp [Node.statementLists] at runs
        · simp [Node.statementLists] at runs
  simp only [handledRaise, Node.body, List.cons_append, List.nil_append, List.mem_cons,
    List.not_mem_nil, or_false] at among
  rcases among with rfl | rfl | rfl
  · exact rfl
  · exact trivial
  · exact trivial

/-- Some path meets the `raise` and then the handler. -/
theorem exists_path_handledRaise : ∃ graph, ofRoot handledRaise = .ok graph ∧
    ∃ blocks target, graph.Path graph.entry blocks target ∧ graph.successors target = [] ∧
      graph.trace blocks = [⟨.raiseError none, default⟩, ⟨.pass, default⟩] := by
  have passes : Node.RunsAll [⟨.pass, default⟩] ([⟨.pass, default⟩] ++ []) .finished :=
    .cons (.straight trivial) .nil
  have raises : Node.RunsAll [⟨.raiseError none, default⟩] [⟨.raiseError none, default⟩]
      (.jumped .raising) := .jumped .raiseError
  have handled : Node.RunsAll handledRaise.body
      ([⟨.raiseError none, default⟩] ++ ([⟨.pass, default⟩] ++ []) ++ []) .finished :=
    .cons (.tryHandled raises (.inr rfl) (List.mem_singleton_self _) passes) .nil
  exact ⟨_, rfl, (path_iff_run rfl (fun _ => structured_of_standsIn_handledRaise) _).1.2
    ⟨.finished, handled⟩⟩

end Graph

end FlowAnalysis
