import FlowAnalysis.Proofs.Python.ExpressionReads
import FlowAnalysis.Python.Module

/-!
# Reads in modules

A statement reads a name where one of its expressions or of the statements inside it does. The tree
of a module shows every read that lies outside type hints, type aliases and blocks for groups of
errors, except in four places. Two are left out on purpose: a case tests the subject and the guard,
not the pattern, and a type hint without a value does nothing, so its target is not evaluated. The
other two, the format of a replacement field and the error from which another one is raised, are
forgotten.
-/

namespace FlowAnalysis

namespace Python

variable {source : Source} {id : String} {location : Location}

/-! ### Numbered trees -/

namespace Numbering

variable {First Second : Type}

/-- Whatever locations have been counted, the result has a property. -/
def Ensures (numbered : Numbering First) (holds : First → Prop) : Prop :=
  ∀ count, holds (numbered.run count).1

variable {numbered : Numbering First} {holds : First → Prop} {holds' : Second → Prop}

theorem Ensures.pure {value : First} (holdsOfValue : holds value) :
    Ensures (pure value) holds :=
  fun _ => holdsOfValue

theorem Ensures.bind {next : First → Numbering Second} (first : numbered.Ensures holds)
    (second : ∀ value, holds value → (next value).Ensures holds') :
    Ensures (numbered >>= next) holds' :=
  fun count => second _ (first count) _

theorem Ensures.skip {next : First → Numbering Second}
    (second : ∀ value, (next value).Ensures holds') : Ensures (numbered >>= next) holds' :=
  fun _ => second _ _

theorem Ensures.mapM {make : First → Numbering Second} {value : First} {values : List First}
    (isMember : value ∈ values) (ensures : (make value).Ensures holds') :
    Ensures (values.mapM make) fun made => ∃ result ∈ made, holds' result := by
  induction values with
  | nil => cases isMember
  | cons first rest ih =>
      rw [List.mapM_cons]
      rcases List.mem_cons.1 isMember with rfl | isMember
      · refine ensures.bind fun result holdsOfResult => .skip fun results => .pure ?_
        exact ⟨result, List.mem_cons_self, holdsOfResult⟩
      · refine .skip fun first => (ih isMember).bind fun results => ?_
        rintro ⟨result, isResult, holdsOfResult⟩
        exact .pure ⟨result, List.mem_cons_of_mem _ isResult, holdsOfResult⟩

end Numbering

/-! ### Statements and what stands in them -/

namespace StatementForm

variable {Inner : Type}

/-- The expressions of a statement with their places. -/
def expressions : StatementForm Inner → List (Place × Expression)
  | .pass | .breakLoop | .continueLoop | .globalNames _ | .nonlocalNames _ | .importModules _
  | .importFrom _ _ => []
  | .expression value => Place.plain.holding [value]
  | .delete targets => Place.plain.holding targets
  | .assign targets value => Place.plain.holding (value :: targets)
  | .augment _ target value => Place.plain.holding [target, value]
  | .annotate target typeHint (some value) =>
      Place.plain.holding [target, value] ++ Place.typeHint.holding [typeHint]
  | .annotate target typeHint none =>
      Place.hintedTarget.holding [target] ++ Place.typeHint.holding [typeHint]
  | .returnValue value => Place.plain.holding value.toList
  | .raiseError error cause =>
      Place.plain.holding error.toList ++ Place.cause.holding cause.toList
  | .assertion test message => Place.plain.holding (test :: message.toList)
  | .typeAlias _ value => Place.typeAlias.holding [value]
  | .definition _ parameters returns _ decorators =>
      parameters.flatMap Parameter.parts ++ Place.typeHint.holding returns.toList ++
        Place.plain.holding decorators
  | .classDefinition _ bases keywords _ decorators =>
      Place.plain.holding (bases ++ keywords.map Keyword.value ++ decorators)
  | .conditional test _ elifs _ => Place.plain.holding (test :: elifs.map Branch.test)
  | .whileLoop test _ _ => Place.plain.holding [test]
  | .forLoop target iter _ _ => Place.plain.holding [target, iter]
  | .withBlock items _ =>
      Place.plain.holding (items.flatMap fun item => item.context :: item.target.toList)
  | .matchCases subject first rest =>
      Place.plain.holding (subject :: (first :: rest).flatMap fun clause => clause.guard.toList) ++
        Place.pattern.holding ((first :: rest).flatMap MatchCase.pattern)
  | .tryBlock grouped _ handlers _ _ =>
      (if grouped then Place.groupedBlock else Place.plain).holding
        (handlers.flatMap fun handler => handler.error.toList)

/-- The statements inside a statement with their places. -/
def statements : StatementForm Inner → List (Place × Inner)
  | .definition _ _ _ body _ | .classDefinition _ _ _ body _ | .withBlock _ body =>
      Place.plain.holding body
  | .conditional _ body elifs orelse =>
      Place.plain.holding (body ++ elifs.flatMap Branch.body ++ orelse)
  | .whileLoop _ body orelse | .forLoop _ _ body orelse => Place.plain.holding (body ++ orelse)
  | .matchCases _ first rest => Place.plain.holding ((first :: rest).flatMap MatchCase.body)
  | .tryBlock grouped body handlers orelse finalbody =>
      (if grouped then Place.groupedBlock else Place.plain).holding
        (body ++ handlers.flatMap Handler.body ++ orelse ++ finalbody)
  | _ => []

end StatementForm

namespace Statement

/-- A statement reads a name at a span, through admitted places only. -/
inductive Reads (admits : Place → Prop) (id : String) (span : Span) : Statement → Prop where
  | expression {statement : Statement} {expression : Expression} {place : Place}
      (isPart : (place, expression) ∈ statement.form.expressions) (admitted : admits place)
      (reads : expression.Reads admits id span) : Reads admits id span statement
  | inner {statement inner : Statement} {place : Place}
      (isPart : (place, inner) ∈ statement.form.statements) (admitted : admits place)
      (reads : Reads admits id span inner) : Reads admits id span statement

/-! ### Trees of several statements -/

theorem toNodes_eq_mapM (statements : List Statement) :
    toNodes source statements = statements.mapM (toNode source) := by
  induction statements with
  | nil => rw [toNodes, List.mapM_nil]
  | cons first rest ih => rw [toNodes, ih, List.mapM_cons]

/-- The tree of an `elif` clause. -/
def branchNode (source : Source) (branch : Branch Statement) : Numbering (ElifClause Node) := do
  return ⟨branch.test.toNode source, ← toNodes source branch.body⟩

theorem branchNodes_eq_mapM (branches : List (Branch Statement)) :
    branchNodes source branches = branches.mapM (branchNode source) := by
  induction branches with
  | nil => rw [branchNodes, List.mapM_nil]
  | cons first rest ih =>
      rw [branchNodes, ih, List.mapM_cons]
      simp [branchNode]

/-- The tree of a handler. -/
def handlerNode (source : Source) (handler : Handler Statement) :
    Numbering (ExceptHandler Node) := do
  let body ← toNodes source handler.body
  return ⟨Expression.toNode? source handler.error, handler.name, body, source.location handler.span⟩

theorem handlerNodes_eq_mapM (handlers : List (Handler Statement)) :
    handlerNodes source handlers = handlers.mapM (handlerNode source) := by
  induction handlers with
  | nil => rw [handlerNodes, List.mapM_nil]
  | cons first rest ih =>
      rw [handlerNodes, ih, List.mapM_cons]
      simp [handlerNode]

theorem caseNodes_eq_mapM (subject : Node) (cases' : List (MatchCase Statement)) :
    caseNodes source subject cases' = cases'.mapM (caseNode source subject) := by
  induction cases' with
  | nil => rw [caseNodes, List.mapM_nil]
  | cons first rest ih => rw [caseNodes, ih, List.mapM_cons]

/-! ### Names in the tree of a statement -/

/-- The tree of a statement shows a name whatever locations have been counted. -/
def Shown (source : Source) (id : String) (location : Location) (statement : Statement) : Prop :=
  (statement.toNode source).Ensures fun node => node.Shows id location

variable {inner : Statement} {body : List Statement}

theorem anyShows_toNodes (isMember : inner ∈ body) (shown : inner.Shown source id location) :
    (toNodes source body).Ensures fun nodes => Node.AnyShows nodes id location := by
  rw [toNodes_eq_mapM]
  exact .mapM isMember shown

theorem anyShows_elseNode? (isMember : inner ∈ body) (shown : inner.Shown source id location) :
    (elseNode? source body).Ensures fun node => Node.AnyShows node.toList id location := by
  cases body with
  | nil => cases isMember
  | cons first rest =>
      have elseNodeEq : elseNode? source (first :: rest) = (do
          let body ← toNodes source (first :: rest)
          return some ⟨.elseClause body, ← clauseLocation source "else" body⟩) := by
        simp [elseNode?, toNodes]
      rw [elseNodeEq]
      refine (anyShows_toNodes isMember shown).bind fun body shows => .skip fun location => .pure ?_
      exact ⟨_, List.mem_singleton_self _, .of_field 0 rfl shows⟩

/-- Where the nodes made for one item show a name, those made for all of them do. -/
theorem anyShows_mapM {Item Clause : Type} {make : Item → Numbering Clause}
    {nodes : Clause → List Node} {item : Item} {items : List Item} (isMember : item ∈ items)
    (shown : (make item).Ensures fun clause => Node.AnyShows (nodes clause) id location) :
    (items.mapM make).Ensures fun clauses =>
      Node.AnyShows (clauses.flatMap nodes) id location := by
  intro count
  rcases Numbering.Ensures.mapM isMember shown count with ⟨clause, isClause, node, isNode, shows⟩
  exact ⟨node, List.mem_flatMap.2 ⟨clause, isClause, isNode⟩, shows⟩

/-- Some targets or values of an assignment show what the tree of a target or the value shows. -/
theorem anyShows_assignedNodes {targets : List Expression} {value part : Expression}
    (isPart : part ∈ value :: targets) (shows : (part.toNode source).Shows id location) :
    Node.AnyShows (assignedNodes source targets value).1 id location ∨
      Node.AnyShows (assignedNodes source targets value).2 id location := by
  have shows' : Node.AnyShows (part.unpacked source) id location :=
    Expression.anyShows_unpacked shows
  have wholly : Node.AnyShows (Expression.toNodes source targets) id location ∨
      Node.AnyShows [value.toNode source] id location := by
    rw [Expression.toNodes_eq_map]
    rcases List.mem_cons.1 isPart with rfl | isTarget
    · exact .inr ⟨_, List.mem_singleton_self _, shows⟩
    · exact .inl ⟨_, List.mem_map_of_mem isTarget, shows⟩
  fun_cases assignedNodes source targets value with
  | case1 =>
      simp only [List.mem_cons, List.not_mem_nil, or_false] at isPart
      rcases isPart with rfl | rfl
      · exact .inr shows'
      · exact .inl shows'
  | case2 => exact wholly
  | case3 => exact wholly

/-- A case shows what the trees of its subject and of its guard show. -/
theorem shows_caseNode_cond {subject : Node} {clause : MatchCase Statement}
    (shows : Node.AnyShows (subject :: (Expression.toNode? source clause.guard).toList) id
      location) :
    (caseNode source subject clause).Ensures fun made => made.cond.Shows id location := by
  rw [caseNode]
  exact .skip fun body => .skip fun location => .pure (.of_field 0 rfl shows)

theorem anyShows_caseNode_body {subject : Node} {clause : MatchCase Statement}
    (isMember : inner ∈ clause.body) (shown : inner.Shown source id location) :
    (caseNode source subject clause).Ensures fun made => Node.AnyShows made.body id location := by
  rw [caseNode]
  exact (anyShows_toNodes isMember shown).bind fun body shows => .skip fun location => .pure shows

/-- The tree of a statement shows what the trees of its expressions show. -/
theorem shown_of_mem_expressions {statement : Statement} {part : Expression}
    (isPart : (Place.plain, part) ∈ statement.form.expressions)
    (shows : (part.toNode source).Shows id location) : statement.Shown source id location := by
  rcases statement with ⟨form, span⟩
  unfold Shown
  cases form with
  | pass | breakLoop | continueLoop | globalNames | nonlocalNames | importModules | importFrom =>
      cases isPart
  | typeAlias name value => simp [StatementForm.expressions] at isPart
  | expression value =>
      simp only [StatementForm.expressions, Place.mem_holding, List.mem_singleton,
        true_and] at isPart
      rcases isPart with rfl
      rw [toNode]
      exact .pure shows
  | delete targets =>
      simp only [StatementForm.expressions, Place.mem_holding, true_and] at isPart
      rw [toNode, Expression.toNodes_eq_map]
      exact .pure (.of_field 0 rfl ⟨_, List.mem_map_of_mem isPart, shows⟩)
  | assign targets value =>
      simp only [StatementForm.expressions, Place.mem_holding, true_and] at isPart
      rw [toNode]
      refine .pure ?_
      rcases anyShows_assignedNodes isPart shows with shows | shows
      · exact .of_field 1 rfl shows
      · exact .of_field 2 rfl shows
  | augment operator target value =>
      simp only [StatementForm.expressions, Place.mem_holding, List.mem_cons, List.not_mem_nil,
        or_false, true_and] at isPart
      rw [toNode]
      rcases isPart with rfl | rfl
      · exact .pure (shows.of_child List.mem_cons_self)
      · exact .pure (shows.of_child (List.mem_cons_of_mem _ List.mem_cons_self))
  | annotate target typeHint value =>
      cases value with
      | none => simp [StatementForm.expressions] at isPart
      | some value =>
          simp only [StatementForm.expressions, List.mem_append, Place.mem_holding, List.mem_cons,
            List.not_mem_nil, or_false, true_and, reduceCtorEq, false_and] at isPart
          rw [toNode]
          rcases isPart with rfl | rfl
          · exact .pure (shows.of_child List.mem_cons_self)
          · exact .pure (shows.of_child (List.mem_cons_of_mem _ List.mem_cons_self))
  | returnValue value =>
      simp only [StatementForm.expressions, Place.mem_holding, Option.mem_toList,
        true_and] at isPart
      subst isPart
      rw [toNode, Expression.toNode?]
      exact .pure (shows.of_child List.mem_cons_self)
  | raiseError error cause =>
      simp only [StatementForm.expressions, List.mem_append, Place.mem_holding, Option.mem_toList,
        true_and, reduceCtorEq, false_and, or_false] at isPart
      subst isPart
      rw [toNode, Expression.toNode?]
      exact .pure (shows.of_child List.mem_cons_self)
  | assertion test message =>
      simp only [StatementForm.expressions, Place.mem_holding, List.mem_cons, Option.mem_toList,
        true_and] at isPart
      rw [toNode]
      rcases isPart with rfl | rfl
      · exact .pure (shows.of_child List.mem_cons_self)
      · rw [Expression.toNode?]
        exact .pure (shows.of_child (List.mem_cons_of_mem _ List.mem_cons_self))
  | definition name parameters returns body decorators =>
      simp only [StatementForm.expressions, List.mem_append, List.mem_flatMap, Place.mem_holding,
        reduceCtorEq, false_and, or_false, true_and] at isPart
      rw [toNode, Expression.toNodes_eq_map, Expression.parameterNodes_eq_map]
      refine .skip fun body => .pure ?_
      rcases isPart with ⟨parameter, isParameter, isPart⟩ | isDecorator
      · have shows := Expression.shows_parameterNode isPart shows
        exact .of_field 2 rfl ⟨_, List.mem_map_of_mem isParameter, shows⟩
      · exact .of_field 1 rfl ⟨_, List.mem_map_of_mem isDecorator, shows⟩
  | classDefinition name bases keywords body decorators =>
      simp only [StatementForm.expressions, Place.mem_holding, List.mem_append, List.mem_map,
        true_and] at isPart
      rw [toNode, Expression.toNodes_eq_map, Expression.toNodes_eq_map]
      refine .skip fun body => .pure ?_
      rcases isPart with (isBase | ⟨keyword, isKeyword, rfl⟩) | isDecorator
      · refine .of_field 2 rfl ⟨_, List.mem_append_left _ ?_, shows⟩
        exact List.mem_map_of_mem isBase
      · refine .of_field 2 rfl ⟨_, List.mem_append_right _ ?_, shows⟩
        exact List.mem_map.2 ⟨keyword, isKeyword, rfl⟩
      · exact .of_field 1 rfl ⟨_, List.mem_map_of_mem isDecorator, shows⟩
  | conditional test body elifs orelse =>
      simp only [StatementForm.expressions, Place.mem_holding, List.mem_cons, List.mem_map,
        true_and] at isPart
      rw [toNode]
      rcases isPart with rfl | ⟨branch, isBranch, rfl⟩
      · refine .skip fun elifs => .skip fun orelse => .skip fun body => .pure ?_
        exact shows.of_child List.mem_cons_self
      · have shownBranch : (branchNode source branch).Ensures fun clause =>
            Node.AnyShows (clause.cond :: clause.body) id location :=
          .skip fun body => .pure ⟨_, List.mem_cons_self, shows⟩
        rw [branchNodes_eq_mapM]
        refine (anyShows_mapM isBranch shownBranch).bind fun elifs shows => ?_
        exact .skip fun orelse => .skip fun body => .pure (.of_field 2 rfl shows)
  | whileLoop test body orelse =>
      simp only [StatementForm.expressions, Place.mem_holding, List.mem_singleton,
        true_and] at isPart
      rcases isPart with rfl
      rw [toNode]
      exact .skip fun body => .skip fun orelse => .pure (shows.of_child List.mem_cons_self)
  | forLoop target iter body orelse =>
      simp only [StatementForm.expressions, Place.mem_holding, List.mem_cons, List.not_mem_nil,
        or_false, true_and] at isPart
      rw [toNode]
      refine .skip fun body => .skip fun orelse => .pure ?_
      rcases isPart with rfl | rfl
      · exact .of_field 0 rfl (Expression.anyShows_unpacked shows)
      · exact .of_field 1 rfl ⟨_, List.mem_singleton_self _, shows⟩
  | withBlock items body =>
      simp only [StatementForm.expressions, Place.mem_holding, List.mem_flatMap, List.mem_cons,
        Option.mem_toList, true_and] at isPart
      rw [toNode]
      refine .skip fun body => .pure (.of_field 0 rfl ⟨part.toNode source, ?_, shows⟩)
      rcases isPart with ⟨item, isItem, isPart⟩
      refine List.mem_flatMap.2 ⟨withItemNode source item, List.mem_map_of_mem isItem, ?_⟩
      rcases isPart with rfl | isTarget
      · exact List.mem_cons_self
      · simp [withItemNode, isTarget]
  | matchCases subject first rest =>
      simp only [StatementForm.expressions, List.flatMap_cons, List.mem_append, Place.mem_holding,
        List.mem_cons, List.mem_flatMap, Option.mem_toList, reduceCtorEq, false_and, or_false,
        true_and] at isPart
      rw [toNode]
      rcases isPart with rfl | isGuard | ⟨clause, isClause, isGuard⟩
      · refine (shows_caseNode_cond ⟨_, List.mem_cons_self, shows⟩).bind fun first shows => ?_
        exact .skip fun rest => .pure (shows.of_child List.mem_cons_self)
      · refine (shows_caseNode_cond ⟨part.toNode source, ?_, shows⟩).bind fun first shows => ?_
        · simp [isGuard, Expression.toNode?_eq_map]
        · exact .skip fun rest => .pure (shows.of_child List.mem_cons_self)
      · have shownCase : (caseNode source (subject.toNode source) clause).Ensures fun made =>
            Node.AnyShows (made.cond :: made.body) id location := by
          have shows : Node.AnyShows
              (subject.toNode source :: (Expression.toNode? source clause.guard).toList) id
              location :=
            ⟨part.toNode source, by simp [isGuard, Expression.toNode?_eq_map], shows⟩
          exact fun count => ⟨_, List.mem_cons_self, shows_caseNode_cond shows count⟩
        rw [caseNodes_eq_mapM]
        refine .skip fun first => (anyShows_mapM isClause shownCase).bind fun rest shows => ?_
        exact .pure (.of_field 2 rfl shows)
  | tryBlock grouped body handlers orelse finalbody =>
      cases grouped with
      | true => simp [StatementForm.expressions] at isPart
      | false =>
          simp only [StatementForm.expressions, Bool.false_eq_true, if_false, Place.mem_holding,
            List.mem_flatMap, Option.mem_toList, true_and] at isPart
          rcases isPart with ⟨handler, isHandler, isError⟩
          have shownHandler : (handlerNode source handler).Ensures fun made =>
              Node.AnyShows (made.cond.toList ++ made.body) id location := by
            refine .skip fun body => .pure ⟨part.toNode source, List.mem_append_left _ ?_, shows⟩
            simp [isError, Expression.toNode?_eq_map]
          rw [toNode, handlerNodes_eq_mapM]
          refine (anyShows_mapM isHandler shownHandler).bind fun handlers shows => ?_
          refine .skip fun body => .skip fun orelse => .skip fun finalbody => ?_
          exact .pure (.of_field 1 rfl shows)

/-- The tree of a statement shows what the trees of the statements inside it show. -/
theorem shown_of_mem_statements {statement inner : Statement}
    (isPart : (Place.plain, inner) ∈ statement.form.statements)
    (shown : inner.Shown source id location) : statement.Shown source id location := by
  rcases statement with ⟨form, span⟩
  unfold Shown
  cases form with
  | definition name parameters returns body decorators =>
      simp only [StatementForm.statements, Place.mem_holding, true_and] at isPart
      rw [toNode]
      exact (anyShows_toNodes isPart shown).bind fun body shows => .pure (.of_field 3 rfl shows)
  | classDefinition name bases keywords body decorators =>
      simp only [StatementForm.statements, Place.mem_holding, true_and] at isPart
      rw [toNode]
      exact (anyShows_toNodes isPart shown).bind fun body shows => .pure (.of_field 3 rfl shows)
  | withBlock items body =>
      simp only [StatementForm.statements, Place.mem_holding, true_and] at isPart
      rw [toNode]
      exact (anyShows_toNodes isPart shown).bind fun body shows => .pure (.of_field 1 rfl shows)
  | conditional test body elifs orelse =>
      simp only [StatementForm.statements, Place.mem_holding, List.mem_append, List.mem_flatMap,
        true_and] at isPart
      rw [toNode]
      rcases isPart with (inBody | ⟨branch, isBranch, isMember⟩) | inElse
      · refine .skip fun elifs => .skip fun orelse => ?_
        exact (anyShows_toNodes inBody shown).bind fun body shows => .pure (.of_field 1 rfl shows)
      · have shownBranch : (branchNode source branch).Ensures fun clause =>
            Node.AnyShows (clause.cond :: clause.body) id location := by
          refine (anyShows_toNodes isMember shown).bind fun body shownBody => ?_
          rcases shownBody with ⟨node, isNode, shows⟩
          exact .pure ⟨node, List.mem_cons_of_mem _ isNode, shows⟩
        rw [branchNodes_eq_mapM]
        refine (anyShows_mapM isBranch shownBranch).bind fun elifs shows => ?_
        exact .skip fun orelse => .skip fun body => .pure (.of_field 2 rfl shows)
      · refine .skip fun elifs => (anyShows_elseNode? inElse shown).bind fun orelse shows => ?_
        exact .skip fun body => .pure (.of_field 3 rfl shows)
  | whileLoop test body orelse =>
      simp only [StatementForm.statements, Place.mem_holding, List.mem_append, true_and] at isPart
      rw [toNode]
      rcases isPart with inBody | inElse
      · refine (anyShows_toNodes inBody shown).bind fun body shows => .skip fun orelse => ?_
        exact .pure (.of_field 1 rfl shows)
      · refine .skip fun body => (anyShows_toNodes inElse shown).bind fun orelse shows => ?_
        exact .pure (.of_field 2 rfl shows)
  | forLoop target iter body orelse =>
      simp only [StatementForm.statements, Place.mem_holding, List.mem_append, true_and] at isPart
      rw [toNode]
      rcases isPart with inBody | inElse
      · refine (anyShows_toNodes inBody shown).bind fun body shows => .skip fun orelse => ?_
        exact .pure (.of_field 2 rfl shows)
      · refine .skip fun body => (anyShows_toNodes inElse shown).bind fun orelse shows => ?_
        exact .pure (.of_field 3 rfl shows)
  | matchCases subject first rest =>
      simp only [StatementForm.statements, Place.mem_holding, List.flatMap_cons, List.mem_append,
        List.mem_flatMap, true_and] at isPart
      rw [toNode]
      rcases isPart with inFirst | ⟨clause, isClause, isMember⟩
      · refine (anyShows_caseNode_body inFirst shown).bind fun first shows => .skip fun rest => ?_
        exact .pure (.of_field 1 rfl shows)
      · have shownCase : (caseNode source (subject.toNode source) clause).Ensures fun clause =>
            Node.AnyShows (clause.cond :: clause.body) id location := fun count => by
          rcases anyShows_caseNode_body isMember shown count with ⟨node, isNode, shows⟩
          exact ⟨node, List.mem_cons_of_mem _ isNode, shows⟩
        rw [caseNodes_eq_mapM]
        refine .skip fun first => (anyShows_mapM isClause shownCase).bind fun rest shows => ?_
        exact .pure (.of_field 2 rfl shows)
  | tryBlock grouped body handlers orelse finalbody =>
      cases grouped with
      | true => simp [StatementForm.statements] at isPart
      | false =>
          simp only [StatementForm.statements, Bool.false_eq_true, if_false, Place.mem_holding,
            List.mem_append, List.mem_flatMap, true_and] at isPart
          rw [toNode]
          rcases isPart with ((inBody | ⟨handler, isHandler, isMember⟩) | inElse) | inFinal
          · refine .skip fun handlers => (anyShows_toNodes inBody shown).bind fun body shows => ?_
            exact .skip fun orelse => .skip fun finalbody => .pure (.of_field 0 rfl shows)
          · have shownHandler : (handlerNode source handler).Ensures fun handler =>
                Node.AnyShows (handler.cond.toList ++ handler.body) id location := by
              refine (anyShows_toNodes isMember shown).bind fun body shownBody => ?_
              rcases shownBody with ⟨node, isNode, shows⟩
              exact .pure ⟨node, List.mem_append_right _ isNode, shows⟩
            rw [handlerNodes_eq_mapM]
            refine (anyShows_mapM isHandler shownHandler).bind fun handlers shows => ?_
            refine .skip fun body => .skip fun orelse => .skip fun finalbody => ?_
            exact .pure (.of_field 1 rfl shows)
          · refine .skip fun handlers => .skip fun body => ?_
            refine (anyShows_toNodes inElse shown).bind fun orelse shows => ?_
            exact .skip fun finalbody => .pure (.of_field 2 rfl shows)
          · refine .skip fun handlers => .skip fun body => .skip fun orelse => ?_
            refine (anyShows_toNodes inFinal shown).bind fun finalbody shows => ?_
            exact .pure (.of_field 3 rfl shows)
  | _ => cases isPart

/-- The tree of a statement shows the names that the statement reads. -/
theorem Reads.shown {statement : Statement} {span : Span}
    (reads : statement.Reads (· = .plain) id span) :
    statement.Shown source id (source.location span) := by
  induction reads with
  | expression isPart admitted reads =>
      subst admitted
      exact shown_of_mem_expressions isPart reads.shows
  | inner isPart admitted _ ih =>
      subst admitted
      exact shown_of_mem_statements isPart ih

/-- The names that a statement reads through admitted places, as far down as a depth. -/
def readsWithin (admits : Place → Prop) [DecidablePred admits] :
    Nat → Statement → List (String × Span)
  | 0, _ => []
  | depth + 1, statement =>
      ((statement.form.expressions.filter (admits ·.1)).flatMap fun part =>
          part.2.readsWithin admits depth) ++
        (statement.form.statements.filter (admits ·.1)).flatMap fun part =>
          part.2.readsWithin admits depth

theorem reads_of_mem_readsWithin {admits : Place → Prop} [DecidablePred admits]
    {depth : Nat} {statement : Statement} {span : Span}
    (isRead : (id, span) ∈ statement.readsWithin admits depth) :
    statement.Reads admits id span := by
  fun_induction readsWithin admits depth statement with
  | case1 => cases isRead
  | case2 depth statement ih =>
      rcases List.mem_append.1 isRead with isRead | isRead
      · rcases List.mem_flatMap.1 isRead with ⟨part, isPart, isRead⟩
        rcases List.mem_filter.1 isPart with ⟨isPart, admitted⟩
        exact .expression isPart (of_decide_eq_true admitted)
          (Expression.reads_of_mem_readsWithin isRead)
      · rcases List.mem_flatMap.1 isRead with ⟨part, isPart, isRead⟩
        rcases List.mem_filter.1 isPart with ⟨isPart, admitted⟩
        exact .inner isPart (of_decide_eq_true admitted) (ih part isRead)

end Statement

/-- Whatever parser finds the statements of a text, the text has a tree, which shows every name that
one of the statements reads, with the location of the read. -/
theorem moduleTree_shows_reads {statements? : StatementParser} {text : String}
    {path : Option String} {statements : List Statement}
    (isRead : statements? text.toList = some statements) :
    ∃ tree, moduleTree statements? text path = .ok tree ∧ ∀ statement ∈ statements, ∀ id span,
      statement.Reads (· = .plain) id span →
        tree.Shows id (Source.location { text := text.toList, path } span) := by
  refine ⟨moduleNode { text := text.toList, path } statements, ?_, ?_⟩
  · simp only [moduleTree, isRead]
  · intro statement isStatement id span reads
    exact .of_field 0 rfl (Statement.anyShows_toNodes isStatement reads.shown 0)

/-- The statement `x[a, b:] = f(*c, *[d for e in g if h])`. -/
def indexedStatement : Statement :=
  let index : Expression :=
    ⟨.tuple [⟨.name "a" .load, ⟨2, 3⟩⟩,
        ⟨.slice (some ⟨.name "b" .load, ⟨5, 6⟩⟩) none none, ⟨5, 7⟩⟩],
      ⟨2, 7⟩⟩
  let comprehension : Expression :=
    ⟨.listComp ⟨.name "d" .load, ⟨19, 20⟩⟩ [{
        target := ⟨.name "e" .store, ⟨25, 26⟩⟩
        iter := ⟨.name "g" .load, ⟨30, 31⟩⟩
        tests := [⟨.name "h" .load, ⟨35, 36⟩⟩] }],
      ⟨18, 37⟩⟩
  let arguments : List Expression :=
    [⟨.starred ⟨.name "c" .load, ⟨14, 15⟩⟩, ⟨13, 15⟩⟩, ⟨.starred comprehension, ⟨17, 37⟩⟩]
  ⟨.assign [⟨.subscript ⟨.name "x" .load, ⟨0, 1⟩⟩ index, ⟨0, 8⟩⟩]
      ⟨.call ⟨.name "f" .load, ⟨11, 12⟩⟩ arguments [], ⟨11, 38⟩⟩,
    ⟨0, 38⟩⟩

/-- Reads in an index, in an unpacked argument and in a condition of a comprehension. -/
theorem moduleTree_shows_index :
    ∃ tree, moduleTree (fun _ => some [indexedStatement])
        "x[a, b:] = f(*c, *[d for e in g if h])" none = .ok tree ∧
      tree.Shows "b" ⟨1, 5, 1, 6, none⟩ ∧ tree.Shows "c" ⟨1, 14, 1, 15, none⟩ ∧
      tree.Shows "h" ⟨1, 35, 1, 36, none⟩ := by
  have reads : ("b", ⟨5, 6⟩) ∈ indexedStatement.readsWithin (· = .plain) 5 ∧
      ("c", ⟨14, 15⟩) ∈ indexedStatement.readsWithin (· = .plain) 5 ∧
      ("h", ⟨35, 36⟩) ∈ indexedStatement.readsWithin (· = .plain) 5 := by
    decide +kernel
  rcases reads with ⟨readsB, readsC, readsH⟩
  rcases @moduleTree_shows_reads (fun _ => some [indexedStatement]) _ none _ rfl with
    ⟨tree, treeEq, shows⟩
  have shows := shows indexedStatement (List.mem_singleton_self _)
  refine ⟨tree, treeEq, ?_, ?_, ?_⟩
  · exact shows "b" ⟨5, 6⟩ (Statement.reads_of_mem_readsWithin readsB)
  · exact shows "c" ⟨14, 15⟩ (Statement.reads_of_mem_readsWithin readsC)
  · exact shows "h" ⟨35, 36⟩ (Statement.reads_of_mem_readsWithin readsH)

/-! ### Reads that trees leave out -/

/-- Whatever parser finds just one statement in a text, the tree of the text leaves out a name that
the statement reads through a place. -/
def LeavesOut (text : String) (statement : Statement) (place : Place) : Prop :=
  ∃ (id : String) (span : Span) (tree : Node) (source : Source),
    source.text = text.toList ∧ source.path = none ∧
      statement.Reads (· ∈ [Place.plain, place]) id span ∧
        (∀ statements? : StatementParser, statements? text.toList = some [statement] →
          moduleTree statements? text none = .ok tree) ∧
        ¬ tree.Shows id (source.location span)

/-- A text leaves out a read if it does so within a depth. -/
theorem leavesOut_of_readsWithin {text : String} {statement : Statement} {place : Place}
    (depth : Nat)
    (found : ∃ read ∈ statement.readsWithin (· ∈ [.plain, place]) depth,
      (moduleNode { text := text.toList, path := none } [statement]).hidesWithin read.1
        (Source.location { text := text.toList, path := none } read.2) depth) :
    LeavesOut text statement place := by
  rcases found with ⟨read, reads, hides⟩
  refine ⟨read.1, read.2, moduleNode { text := text.toList, path := none } [statement], _, rfl, rfl,
    Statement.reads_of_mem_readsWithin reads, ?_, Node.not_shows_of_hidesWithin hides⟩
  intro statements? isRead
  simp only [moduleTree, isRead]

/-- The statement `match s:` with the case `p.q`, which does nothing. -/
def valueMatch : Statement :=
  let pattern : Expression := ⟨.attribute ⟨.name "p" .load, ⟨16, 17⟩⟩ "q", ⟨16, 19⟩⟩
  let clause : MatchCase Statement := ⟨[pattern], none, [⟨.pass, ⟨21, 25⟩⟩]⟩
  ⟨.matchCases ⟨.name "s" .load, ⟨6, 7⟩⟩ clause [], ⟨0, 25⟩⟩

/-- The statement `t[i]: h`. -/
def bareHint : Statement :=
  let target : Expression :=
    ⟨.subscript ⟨.name "t" .load, ⟨0, 1⟩⟩ ⟨.name "i" .load, ⟨2, 3⟩⟩, ⟨0, 4⟩⟩
  ⟨.annotate target ⟨.name "h" .load, ⟨6, 7⟩⟩ none, ⟨0, 7⟩⟩

/-- Not every read outside type hints, type aliases and blocks for groups of errors is shown: a case
only tests the subject and the guard, and a type hint without a value does nothing. -/
theorem leavesOut_pattern_and_hintedTarget :
    LeavesOut "match s:\n  case p.q: pass" valueMatch .pattern ∧
      LeavesOut "t[i]: h" bareHint .hintedTarget := by
  refine ⟨leavesOut_of_readsWithin 5 ?_, leavesOut_of_readsWithin 4 ?_⟩
  · decide +kernel
  · decide +kernel

/-- The statement `raise e from c`. -/
def chainedRaise : Statement :=
  ⟨.raiseError (some ⟨.name "e" .load, ⟨6, 7⟩⟩) (some ⟨.name "c" .load, ⟨13, 14⟩⟩), ⟨0, 14⟩⟩

/-- A text with the value `v` in the format `w`. -/
def formattedText : Statement :=
  let width : Expression := ⟨.replacement ⟨.name "w" .load, ⟨6, 7⟩⟩ [], ⟨5, 8⟩⟩
  let field : Expression := ⟨.replacement ⟨.name "v" .load, ⟨3, 4⟩⟩ [width], ⟨2, 9⟩⟩
  ⟨.expression ⟨.joined [field], ⟨0, 10⟩⟩, ⟨0, 10⟩⟩

-- Both are defects: a statement is to use every name that appears in it, and no form of a tree is
-- meant to stand for a cause or a format.
/-- Trees have no place for the cause of an error or the format of a value. -/
theorem leavesOut_cause_and_format :
    LeavesOut "raise e from c" chainedRaise .cause ∧
      LeavesOut "f\"\x7bv:\x7bw\x7d\x7d\"" formattedText .format := by
  refine ⟨leavesOut_of_readsWithin 4 ?_, leavesOut_of_readsWithin 6 ?_⟩
  · decide +kernel
  · decide +kernel

end Python

end FlowAnalysis
