import FlowAnalysis.Proofs.Tree.Walk
import FlowAnalysis.Python.Expression.Tree

/-!
# Reads in expressions

An expression reads a name where the name stands in it to be loaded. Reads are told by the places
through which they are reached. Wherever an expression reads a name, its tree has a node of that
name with that location, unless the read lies in a type hint or in the format of a replacement
field. The tree leaves out some expressions and keeps their parts: tuples in an index, starred
arguments. None of these is a name.
-/

namespace FlowAnalysis

namespace Node

/-- A name with a location stands in a tree. -/
def Shows (node : Node) (id : String) (location : Location) : Prop :=
  ⟨.name id, location⟩ ∈ node.walk

/-- A name with a location stands in one of several trees. -/
def AnyShows (nodes : List Node) (id : String) (location : Location) : Prop :=
  ∃ node ∈ nodes, node.Shows id location

variable {node child : Node} {id : String} {location : Location}

theorem Shows.of_child (isChild : child ∈ node.children) (shows : child.Shows id location) :
    node.Shows id location :=
  walk_subset_of_mem_children isChild shows

theorem Shows.of_field (index : Nat) {field : Field Node}
    (isField : node.shape.fields[index]? = some field)
    (shows : AnyShows field.subtrees id location) : node.Shows id location := by
  rcases shows with ⟨child, isChild, shows⟩
  exact shows.of_child (List.mem_flatMap.2 ⟨field, List.mem_of_getElem? isField, isChild⟩)

/-- A name stands in a child of a tree that is not itself a name. -/
theorem Shows.anyShows_children (shows : node.Shows id location) (notName : node.nameId? = none) :
    AnyShows node.children id location := by
  rw [Shows, walk_eq] at shows
  rcases List.mem_cons.1 shows with rfl | inside
  · simp [nameId?] at notName
  · exact List.mem_flatMap.1 inside

/-- A name with a location does not stand in a tree, which is no deeper than a depth. -/
def hidesWithin (id : String) (location : Location) : Nat → Node → Bool
  | 0, _ => false
  | depth + 1, node =>
      (node.nameId? != some id || node.location != location) &&
        node.children.all fun child => child.hidesWithin id location depth

theorem not_shows_of_hidesWithin {depth : Nat} (hides : node.hidesWithin id location depth) :
    ¬ node.Shows id location := by
  fun_induction hidesWithin id location depth node with
  | case1 => cases hides
  | case2 depth node ih =>
      simp only [Bool.and_eq_true, Bool.or_eq_true, bne_iff_ne, List.all_eq_true] at hides
      intro shows
      rw [Shows, walk_eq] at shows
      rcases List.mem_cons.1 shows with rfl | inside
      · simp [nameId?] at hides
      · rcases List.mem_flatMap.1 inside with ⟨child, isChild, shows⟩
        exact ih child (hides.2 child isChild) shows

end Node

namespace Python

/-- Where a part of an expression or of a statement stands. -/
inductive Place where
  /-- None of the other places. -/
  | plain
  /-- A type hint for a parameter, a result or a variable. -/
  | typeHint
  /-- The value of a type alias. -/
  | typeAlias
  /-- A block whose handlers take apart groups of errors. -/
  | groupedBlock
  /-- The format of a replacement field. -/
  | format
  /-- The error from which another one is raised. -/
  | cause
  /-- The pattern of a case. -/
  | pattern
  /-- The target of a type hint without a value. -/
  | hintedTarget
deriving DecidableEq, Repr

variable {Part : Type}

/-- Parts that all stand in one place. -/
def Place.holding (place : Place) (parts : List Part) : List (Place × Part) :=
  parts.map fun part => (place, part)

@[simp]
theorem Place.mem_holding {place place' : Place} {part : Part} {parts : List Part} :
    (place', part) ∈ place.holding parts ↔ place = place' ∧ part ∈ parts := by
  simp only [holding, List.mem_map, Prod.mk.injEq]
  constructor
  · rintro ⟨other, isPart, isPlace, rfl⟩
    exact ⟨isPlace, isPart⟩
  · rintro ⟨isPlace, isPart⟩
    exact ⟨part, isPart, isPlace, rfl⟩

/-- The type hint and the default of a parameter. -/
def Parameter.parts (parameter : Parameter Part) : List (Place × Part) :=
  Place.typeHint.holding parameter.typeHint.toList ++ Place.plain.holding parameter.default.toList

/-- The parts of a `for` clause and of the conditions after it. -/
def CompClause.parts (clause : CompClause Part) : List Part :=
  clause.target :: clause.iter :: clause.tests

namespace ExpressionForm

/-- The parts of an expression with their places. -/
def parts : ExpressionForm Part → List (Place × Part)
  | .constant _ | .name _ _ => []
  | .replacement value format => Place.plain.holding [value] ++ Place.format.holding format
  | .lambda parameters body => parameters.flatMap Parameter.parts ++ Place.plain.holding [body]
  | .attribute value _ | .starred value | .unary _ value | .await value | .yieldFrom value =>
      Place.plain.holding [value]
  | .subscript first second | .binary _ first second | .binding first second =>
      Place.plain.holding [first, second]
  | .conditional test consequent alternative =>
      Place.plain.holding [test, consequent, alternative]
  | .slice start stop step => Place.plain.holding (start.toList ++ stop.toList ++ step.toList)
  | .yieldValue value => Place.plain.holding value.toList
  | .joined elements | .tuple elements | .list elements | .set elements =>
      Place.plain.holding elements
  | .chain _ first rest => Place.plain.holding (first :: rest)
  | .comparison left rest => Place.plain.holding (left :: rest.map Comparison.right)
  | .call func arguments keywords =>
      Place.plain.holding (func :: arguments ++ keywords.map Keyword.value)
  | .dict entries =>
      Place.plain.holding (entries.flatMap fun entry => entry.key.toList ++ [entry.value])
  | .listComp element clauses | .setComp element clauses | .generator element clauses =>
      Place.plain.holding (element :: clauses.flatMap CompClause.parts)
  | .dictComp key value clauses =>
      Place.plain.holding (key :: value :: clauses.flatMap CompClause.parts)

end ExpressionForm

namespace Expression

/-- An expression reads a name at a span, through admitted places only. -/
inductive Reads (admits : Place → Prop) (id : String) (span : Span) : Expression → Prop where
  | name : Reads admits id span ⟨.name id .load, span⟩
  | part {expression part : Expression} {place : Place}
      (isPart : (place, part) ∈ expression.form.parts) (admitted : admits place)
      (reads : Reads admits id span part) : Reads admits id span expression

variable {source : Source} {id : String} {location : Location}

/-! ### Trees of several expressions -/

theorem toNodes_eq_map (expressions : List Expression) :
    toNodes source expressions = expressions.map (toNode source) := by
  induction expressions with
  | nil => rw [toNodes, List.map_nil]
  | cons first rest ih => rw [toNodes, ih, List.map_cons]

theorem toNode?_eq_map (expression : Option Expression) :
    toNode? source expression = expression.map (toNode source) := by
  cases expression with
  | none => rw [toNode?, Option.map_none]
  | some expression => rw [toNode?, Option.map_some]

/-- The tree of a positional argument, that of the value where it is unpacked. -/
def argumentNode (source : Source) (argument : Expression) : Node :=
  match argument.form with
  | .starred value => value.toNode source
  | _ => argument.toNode source

theorem positionalNodes_eq_map (arguments : List Expression) :
    (positionalNodes source arguments).map Argument.actual =
      arguments.map (argumentNode source) := by
  induction arguments with
  | nil => rw [positionalNodes, List.map_nil, List.map_nil]
  | cons first rest ih =>
      rcases first with ⟨form, span⟩
      rw [List.map_cons, ← ih]
      cases form <;> simp only [positionalNodes, argumentNode, List.map_cons]

theorem keywordNodes_eq_map (keywords : List (Keyword Expression)) :
    (keywordNodes source keywords).map Argument.actual =
      keywords.map fun keyword => keyword.value.toNode source := by
  induction keywords with
  | nil => rw [keywordNodes, List.map_nil, List.map_nil]
  | cons first rest ih => rw [keywordNodes, List.map_cons, ih, List.map_cons]

theorem entryNodes_eq_map (entries : List (DictEntry Expression)) :
    entryNodes source entries =
      entries.map fun entry => ⟨toNode? source entry.key, entry.value.toNode source⟩ := by
  induction entries with
  | nil => rw [entryNodes, List.map_nil]
  | cons first rest ih => rw [entryNodes, ih, List.map_cons]

/-- The tree of a parameter. -/
def parameterNode (source : Source) (parameter : Parameter Expression) : Node :=
  ⟨.parameter parameter.name (toNode? source parameter.typeHint) (toNode? source parameter.default)
      (parameter.kind == .positionalRest) (parameter.kind == .keywordRest),
    source.location parameter.span⟩

theorem parameterNodes_eq_map (parameters : List (Parameter Expression)) :
    parameterNodes source parameters = parameters.map (parameterNode source) := by
  induction parameters with
  | nil => rw [parameterNodes, List.map_nil]
  | cons first rest ih =>
      rw [parameterNodes, ih, List.map_cons]
      rfl

/-- Chains of one operator are chains of comparisons that all have this operator. -/
theorem chained_eq_compared (operator : String) (left : Node) (rest : List Expression) :
    chained source operator location left rest =
      compared source location left (rest.map fun right => ⟨operator, right⟩) := by
  induction rest generalizing left with
  | nil => rw [chained, List.map_nil, compared]
  | cons first rest ih => rw [chained, ih, List.map_cons, compared]

theorem toNode_subscript (value index : Expression) (span : Span) :
    toNode source ⟨.subscript value index, span⟩ =
      ⟨.index (toNode source value) (index.unpacked source), source.location span⟩ := by
  rcases index with ⟨form, span'⟩
  cases form <;> simp only [toNode, unpacked]

theorem clauseNodes_eq_flatMap (clauses : List (CompClause Expression)) :
    clauseNodes source clauses = clauses.flatMap fun clause =>
      compNodes (clause.target.unpacked source) (clause.iter.toNode source)
        (toNodes source clause.tests) := by
  induction clauses with
  | nil => rw [clauseNodes, List.flatMap_nil]
  | cons first rest ih =>
      rcases first with ⟨⟨form, span⟩, iter, tests⟩
      rw [List.flatMap_cons, ← ih]
      cases form <;> simp only [clauseNodes, unpacked]

/-! ### Names in the tree of an expression -/

/-- What the tree of an expression shows, the trees of its elements show where a tuple is taken
apart. -/
theorem anyShows_unpacked {expression : Expression}
    (shows : (expression.toNode source).Shows id location) :
    Node.AnyShows (expression.unpacked source) id location := by
  unfold unpacked
  split
  · next elements isTuple =>
      rcases expression with ⟨form, span⟩
      rcases isTuple with rfl
      rw [toNode] at shows
      simpa [Node.children, Shape.children, Shape.fields, Field.subtrees]
        using shows.anyShows_children rfl
  · exact ⟨_, List.mem_singleton_self _, shows⟩

/-- What the tree of an argument shows, the tree of what it unpacks shows too. -/
theorem shows_argumentNode {argument : Expression}
    (shows : (argument.toNode source).Shows id location) :
    (argumentNode source argument).Shows id location := by
  unfold argumentNode
  split
  · next value isStarred =>
      rcases argument with ⟨form, span⟩
      rcases isStarred with rfl
      rw [toNode] at shows
      rcases shows.anyShows_children rfl with ⟨child, isChild, shows⟩
      rcases List.mem_singleton.1 isChild with rfl
      exact shows
  · exact shows

/-- The node of a parameter shows what the tree of its default shows. -/
theorem shows_parameterNode {parameter : Parameter Expression} {part : Expression}
    (isPart : (Place.plain, part) ∈ parameter.parts)
    (shows : (part.toNode source).Shows id location) :
    (parameterNode source parameter).Shows id location := by
  simp only [Parameter.parts, List.mem_append, Place.mem_holding, reduceCtorEq, false_and, true_and,
    false_or, Option.mem_toList] at isPart
  refine shows.of_child ?_
  simp [parameterNode, Node.children, Shape.children, Shape.fields, Field.subtrees, toNode?_eq_map,
    isPart]

/-- A chain of comparisons shows what the trees of its operands show. -/
theorem shows_compared {left : Node} {rest : List (Comparison Expression)}
    (shows : left.Shows id location ∨
      ∃ comparison ∈ rest, (comparison.right.toNode source).Shows id location)
    (chain : Location) : (compared source chain left rest).Shows id location := by
  induction rest generalizing left with
  | nil =>
      rw [compared]
      exact shows.resolve_right (by simp)
  | cons first rest ih =>
      rcases first with ⟨operator, right⟩
      rw [compared]
      apply ih
      rcases shows with shows | ⟨comparison, isNext, shows⟩
      · exact .inl (shows.of_child List.mem_cons_self)
      · rcases List.mem_cons.1 isNext with rfl | isNext
        · exact .inl (shows.of_child (List.mem_cons_of_mem _ List.mem_cons_self))
        · exact .inr ⟨comparison, isNext, shows⟩

/-- The nodes of a clause show what its parts show. -/
theorem anyShows_clauseNodes {clauses : List (CompClause Expression)} {part : Expression}
    (isPart : part ∈ clauses.flatMap CompClause.parts)
    (shows : (part.toNode source).Shows id location) :
    Node.AnyShows (clauseNodes source clauses) id location := by
  rcases List.mem_flatMap.1 isPart with ⟨⟨target, iter, tests⟩, isClause, isPart⟩
  suffices Node.AnyShows
      (compNodes (target.unpacked source) (iter.toNode source) (toNodes source tests)) id
      location by
    rcases this with ⟨node, isNode, shows⟩
    rw [clauseNodes_eq_flatMap]
    exact ⟨node, List.mem_flatMap.2 ⟨_, isClause, isNode⟩, shows⟩
  simp only [CompClause.parts, List.mem_cons] at isPart
  rcases isPart with rfl | rfl | isTest
  · exact ⟨_, List.mem_cons_self, .of_field 0 rfl (anyShows_unpacked shows)⟩
  · refine ⟨_, List.mem_cons_self, .of_field 1 rfl ?_⟩
    exact ⟨_, List.mem_singleton_self _, shows⟩
  · rw [toNodes_eq_map]
    refine ⟨_, List.mem_cons_of_mem _ (List.mem_map.2 ⟨_, List.mem_map_of_mem isTest, rfl⟩), ?_⟩
    exact shows.of_child List.mem_cons_self

/-- The tree of an expression shows what the trees of its parts show. -/
theorem shows_of_mem_parts {expression part : Expression}
    (isPart : (Place.plain, part) ∈ expression.form.parts)
    (shows : (part.toNode source).Shows id location) :
    (expression.toNode source).Shows id location := by
  rcases expression with ⟨form, span⟩
  cases form with
  | constant | name => cases isPart
  | replacement value format =>
      simp only [ExpressionForm.parts, List.mem_append, Place.mem_holding, List.mem_singleton,
        true_and, reduceCtorEq, false_and, or_false] at isPart
      rcases isPart with rfl
      rwa [toNode]
  | await value =>
      simp only [ExpressionForm.parts, Place.mem_holding, List.mem_singleton, true_and] at isPart
      rcases isPart with rfl
      rwa [toNode]
  | subscript value index =>
      simp only [ExpressionForm.parts, Place.mem_holding, List.mem_cons, List.not_mem_nil, or_false,
        true_and] at isPart
      rw [toNode_subscript]
      rcases isPart with rfl | rfl
      · exact shows.of_child List.mem_cons_self
      · exact .of_field 1 rfl (anyShows_unpacked shows)
  | call func arguments keywords =>
      simp only [ExpressionForm.parts, Place.mem_holding, List.mem_cons, List.mem_append,
        List.mem_map, true_and] at isPart
      rw [toNode]
      rcases isPart with (rfl | isArgument) | ⟨keyword, isKeyword, rfl⟩
      · exact shows.of_child List.mem_cons_self
      · refine .of_field 1 rfl ⟨_, ?_, shows_argumentNode shows⟩
        rw [Field.subtrees, List.map_append, positionalNodes_eq_map]
        exact List.mem_append_left _ (List.mem_map_of_mem isArgument)
      · refine .of_field 1 rfl ⟨_, ?_, shows⟩
        rw [Field.subtrees, List.map_append, keywordNodes_eq_map]
        exact List.mem_append_right _ (List.mem_map.2 ⟨keyword, isKeyword, rfl⟩)
  | chain operator first rest =>
      simp only [ExpressionForm.parts, Place.mem_holding, List.mem_cons, true_and] at isPart
      rw [toNode, chained_eq_compared]
      apply shows_compared
      rcases isPart with rfl | isPart
      · exact .inl shows
      · exact .inr ⟨_, List.mem_map_of_mem isPart, shows⟩
  | comparison left rest =>
      simp only [ExpressionForm.parts, Place.mem_holding, List.mem_cons, List.mem_map,
        true_and] at isPart
      rw [toNode]
      apply shows_compared
      rcases isPart with rfl | ⟨comparison, isNext, rfl⟩
      · exact .inl shows
      · exact .inr ⟨comparison, isNext, shows⟩
  | lambda parameters body =>
      simp only [ExpressionForm.parts, List.mem_append, List.mem_flatMap, Place.mem_holding,
        List.mem_singleton, true_and] at isPart
      rw [toNode, parameterNodes_eq_map]
      rcases isPart with ⟨parameter, isParameter, isPart⟩ | rfl
      · have shows := shows_parameterNode isPart shows
        exact .of_field 0 rfl ⟨_, List.mem_map_of_mem isParameter, shows⟩
      · exact .of_field 1 rfl ⟨_, List.mem_singleton_self _, shows⟩
  | listComp element clauses | setComp element clauses | generator element clauses =>
      simp only [ExpressionForm.parts, Place.mem_holding, List.mem_cons, true_and] at isPart
      rw [toNode]
      rcases isPart with rfl | isPart
      · exact shows.of_child List.mem_cons_self
      · exact .of_field 1 rfl (anyShows_clauseNodes isPart shows)
  | dictComp key value clauses =>
      simp only [ExpressionForm.parts, Place.mem_holding, List.mem_cons, true_and] at isPart
      rw [toNode]
      rcases isPart with rfl | rfl | isPart
      · exact shows.of_child List.mem_cons_self
      · exact shows.of_child (List.mem_cons_of_mem _ List.mem_cons_self)
      · exact .of_field 1 rfl (anyShows_clauseNodes isPart shows)
  -- The other forms have the trees of their parts as children.
  | _ =>
      apply shows.of_child
      simp only [ExpressionForm.parts, Place.mem_holding, true_and] at isPart
      rw [toNode]
      simp only [Node.children, Shape.children, Shape.fields, Field.subtrees, List.flatMap_cons,
        List.flatMap_nil, toNodes_eq_map, toNode?_eq_map, entryNodes_eq_map]
      grind

/-- The tree of an expression shows the names that the expression reads. -/
theorem Reads.shows {expression : Expression} {span : Span}
    (reads : expression.Reads (· = .plain) id span) :
    (expression.toNode source).Shows id (source.location span) := by
  induction reads with
  | name =>
      rw [toNode]
      exact Node.self_mem_walk _
  | part isPart admitted _ ih =>
      subst admitted
      exact shows_of_mem_parts isPart ih

/-- The names that an expression reads through admitted places, as far down as a depth. -/
def readsWithin (admits : Place → Prop) [DecidablePred admits] :
    Nat → Expression → List (String × Span)
  | 0, _ => []
  | _ + 1, ⟨.name id .load, span⟩ => [(id, span)]
  | depth + 1, ⟨form, _⟩ =>
      (form.parts.filter (admits ·.1)).flatMap fun part => part.2.readsWithin admits depth

theorem reads_of_mem_readsWithin {admits : Place → Prop} [DecidablePred admits] {depth : Nat}
    {expression : Expression} {span : Span}
    (isRead : (id, span) ∈ expression.readsWithin admits depth) :
    expression.Reads admits id span := by
  fun_induction readsWithin admits depth expression with
  | case1 => cases isRead
  | case2 =>
      cases List.mem_singleton.1 isRead
      exact .name
  | case3 depth form own _ ih =>
      rcases List.mem_flatMap.1 isRead with ⟨part, isPart, isRead⟩
      rcases List.mem_filter.1 isPart with ⟨isPart, admitted⟩
      exact .part isPart (of_decide_eq_true admitted) (ih part isRead)

end Expression

end Python

end FlowAnalysis
