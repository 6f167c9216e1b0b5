import FlowAnalysis.Proofs.Analysis.CallUpdates
import FlowAnalysis.Proofs.Analysis.Reaching

/-!
# Free names

Comprehensions and lambdas bind names for what is inside them. A comprehension binds the names that
its targets assign, everywhere in it but in the iterable of its first clause; a lambda binds its
parameters in its body, not in their defaults. An occurrence of a name is free if nothing around it
binds the name.

The uses of an expression leave out more: every name that occurs in a target of a comprehension
anywhere in the expression, and every name that a lambda in it has for a parameter, wherever else
the name occurs. The uses are exactly the free occurrences of all other names.
-/

namespace FlowAnalysis

namespace Node

/-! ### Targets -/

/-- A target that is written at a level has parts that are written, each at a level of its own:
below an attribute or a subscript it is an update. -/
inductive Writes : Level → Node → Level → Node → Prop
  | self {level target} : Writes level target level target
  | tuple {level target items item written part} (isTuple : target.shape = .tuple items)
      (isItem : item ∈ items) (writes : Writes level item written part) :
      Writes level target written part
  | list {level target items comp item written part} (isList : target.shape = .list items comp)
      (isItem : item ∈ items) (writes : Writes level item written part) :
      Writes level target written part
  | starred {level target value written part} (isStarred : target.shape = .starred value)
      (writes : Writes level value written part) : Writes level target written part
  | dot {level target value name written part} (isDot : target.shape = .dot value name)
      (writes : Writes .update value written part) : Writes level target written part
  | index {level target value args written part} (isIndex : target.shape = .index value args)
      (writes : Writes .update value written part) : Writes level target written part

theorem Writes.mem_walk {level written : Level} {target part : Node}
    (writes : Writes level target written part) : part ∈ target.walk := by
  induction writes with
  | self => exact self_mem_walk _
  | tuple isTuple isItem _ ih =>
      apply walk_subset_of_mem_children _ ih
      simpa [children, isTuple, Shape.children, Shape.fields, Field.subtrees] using isItem
  | list isList isItem _ ih =>
      apply walk_subset_of_mem_children _ ih
      simp [children, isList, Shape.children, Shape.fields, Field.subtrees, isItem]
  | starred isStarred _ ih =>
      apply walk_subset_of_mem_children _ ih
      simp [children, isStarred, Shape.children, Shape.fields, Field.subtrees]
  | dot isDot _ ih =>
      apply walk_subset_of_mem_children _ ih
      simp [children, isDot, Shape.children, Shape.fields, Field.subtrees]
  | index isIndex _ ih =>
      apply walk_subset_of_mem_children _ ih
      simp [children, isIndex, Shape.children, Shape.fields, Field.subtrees]

/-! ### Scopes inside an expression -/

/-- The clauses of a comprehension. -/
def clauses (node : Node) : List Node :=
  match node.shape with
  | .list _ comp | .set _ comp | .dict _ comp => comp
  | _ => []

/-- What is around the scope of a comprehension and what is inside it. Around it is the iterable of
the first clause that has one. -/
def splitComprehension (elements : List Node) : List Node → List Node × List Node
  | [] => ([], elements)
  | ⟨.compFor targets iter, _⟩ :: rest => ([iter], elements ++ targets ++ rest)
  | clause :: rest => splitComprehension (elements ++ [clause]) rest

/-- What is beneath a node around the scope that it opens and inside this scope. -/
def splitScope (node : Node) : List Node × List Node :=
  match node.shape with
  | .lambda params body => (params, [body])
  | .list items comp | .set items comp => splitComprehension items comp
  | .dict entries comp =>
      splitComprehension (entries.flatMap fun entry => entry.key.toList ++ [entry.value]) comp
  | _ => (node.children, [])

/-- A node binds a name for what is inside it. -/
inductive BindsInside (node : Node) (id : String) : Prop
  | parameter {params body param typeHint default star starstar}
      (isLambda : node.shape = .lambda params body) (isParam : param ∈ params)
      (isNamed : param.shape = .parameter id typeHint default star starstar) : BindsInside node id
  | target {clause targets iter target name} (isClause : clause ∈ node.clauses)
      (isIteration : clause.shape = .compFor targets iter) (isTarget : target ∈ targets)
      (writes : Writes .definition target .definition name) (isName : name.shape = .name id) :
      BindsInside node id

/-- A name occurs in a node, and nothing in the node binds it there. -/
inductive Free (id : String) : Node → Node → Prop
  | name {node} (isName : node.shape = .name id) : Free id node node
  | outer {node part occurrence} (isPart : part ∈ node.splitScope.1) (free : Free id part occurrence) :
      Free id node occurrence
  | inner {node part occurrence} (isPart : part ∈ node.splitScope.2) (free : Free id part occurrence)
      (unbound : ¬node.BindsInside id) : Free id node occurrence

/-- A comprehension in a node has the name in a target, or a lambda has it for a parameter. -/
inductive Captures (node : Node) (id : String) : Prop
  | target {clause targets iter target} (isInside : clause ∈ node.walk)
      (isIteration : clause.shape = .compFor targets iter) (isTarget : target ∈ targets)
      (mentions : target.Mentions id) : Captures node id
  | parameter {lambda params body param typeHint default star starstar} (isInside : lambda ∈ node.walk)
      (isLambda : lambda.shape = .lambda params body) (isParam : param ∈ params)
      (isNamed : param.shape = .parameter id typeHint default star starstar) : Captures node id

section

variable {node part child occurrence : Node} {id : String}

theorem Captures.mono (captures : part.Captures id) (areInside : part.walk ⊆ node.walk) :
    node.Captures id := by
  rcases captures with ⟨isInside, isIteration, isTarget, mentions⟩ | ⟨isInside, isLambda, isParam, isNamed⟩
  · exact .target (areInside isInside) isIteration isTarget mentions
  · exact .parameter (areInside isInside) isLambda isParam isNamed

theorem nameId?_eq_some : node.nameId? = some id ↔ node.shape = .name id := by
  rw [nameId?]
  split
  · next found => rw [found, Option.some.injEq, Shape.name.injEq]
  · next noName =>
      constructor
      · intro isName
        contradiction
      · intro isName
        exact absurd isName (noName id)

theorem captures_iff :
    node.Captures id ↔ id ∈ node.walk.flatMap innerBindings := by
  rw [List.mem_flatMap]
  constructor
  · rintro (⟨isInside, isIteration, isTarget, mentions⟩ | ⟨isInside, isLambda, isParam, isNamed⟩)
    · refine ⟨_, isInside, ?_⟩
      rcases mentions with ⟨name, isBeneath, isName⟩
      rw [innerBindings, isIteration]
      apply List.mem_flatMap.2
      exact ⟨_, isTarget, List.mem_filterMap.2 ⟨name, isBeneath, nameId?_eq_some.2 isName⟩⟩
    · refine ⟨_, isInside, ?_⟩
      rw [innerBindings, isLambda]
      refine List.mem_filterMap.2 ⟨_, isParam, ?_⟩
      rw [isNamed]
  · rintro ⟨inner, isInside, isBinding⟩
    rw [innerBindings] at isBinding
    split at isBinding
    · next targets iter isIteration =>
        rcases List.mem_flatMap.1 isBinding with ⟨target, isTarget, isBinding⟩
        rcases List.mem_filterMap.1 isBinding with ⟨name, isBeneath, isName⟩
        exact .target isInside isIteration isTarget ⟨name, isBeneath, nameId?_eq_some.1 isName⟩
    · next params body isLambda =>
        rcases List.mem_filterMap.1 isBinding with ⟨param, isParam, isNamed⟩
        split at isNamed
        · next found =>
            rcases isNamed with ⟨⟩
            exact .parameter isInside isLambda isParam found
        · cases isNamed
    · cases isBinding

theorem clauses_subset (node : Node) : node.clauses ⊆ node.children := by
  rw [clauses]
  split
  all_goals
    next isComprehension =>
      simp [children, isComprehension, Shape.children, Shape.fields, Field.subtrees]

theorem BindsInside.captures (binds : node.BindsInside id) : node.Captures id := by
  rcases binds with ⟨isLambda, isParam, isNamed⟩ | ⟨isClause, isIteration, isTarget, writes, isName⟩
  · exact .parameter node.self_mem_walk isLambda isParam isNamed
  · have isInside := walk_subset_of_mem_children (node.clauses_subset isClause) (self_mem_walk _)
    exact .target isInside isIteration isTarget ⟨_, writes.mem_walk, isName⟩

/-! Beneath a node are its parts and, in a comprehension, the clause that is split. -/

section

variable {elements clauses : List Node}

theorem mem_of_mem_splitComprehension
    (isPart : part ∈ (splitComprehension elements clauses).1 ∨
      part ∈ (splitComprehension elements clauses).2) :
    part ∈ elements ++ clauses ∨ ∃ clause ∈ elements ++ clauses, part ∈ clause.children := by
  fun_induction splitComprehension elements clauses with
  | case1 => exact .inl (by simpa using isPart)
  | case2 elements targets iter location rest =>
      simp only [List.mem_singleton, List.mem_append] at isPart
      rcases isPart with rfl | (isElement | isTarget) | isLater
      · exact .inr ⟨_, List.mem_append_right _ List.mem_cons_self, by
          simp [children, Shape.children, Shape.fields, Field.subtrees]⟩
      · exact .inl (List.mem_append_left _ isElement)
      · exact .inr ⟨_, List.mem_append_right _ List.mem_cons_self, by
          simp [children, Shape.children, Shape.fields, Field.subtrees, isTarget]⟩
      · exact .inl (List.mem_append_right _ (List.mem_cons_of_mem _ isLater))
  | case3 elements clause rest notIteration ih => simpa using ih isPart

theorem mem_splitComprehension (isBeneath : child ∈ elements ++ clauses) :
    child ∈ (splitComprehension elements clauses).2 ∨
      child.nameId? = none ∧ ∀ part ∈ child.children,
        part ∈ (splitComprehension elements clauses).1 ∨
          part ∈ (splitComprehension elements clauses).2 := by
  fun_induction splitComprehension elements clauses with
  | case1 => exact .inl (by simpa using isBeneath)
  | case2 elements targets iter location rest =>
      rcases List.mem_append.1 isBeneath with isElement | isClause
      · exact .inl (by simp [isElement])
      · rcases List.mem_cons.1 isClause with rfl | isLater
        · refine .inr ⟨rfl, ?_⟩
          intro part isChild
          simp only [children, Shape.children, Shape.fields, Field.subtrees, List.flatMap_cons,
            List.flatMap_nil, List.append_nil, List.mem_append, List.mem_singleton] at isChild
          rcases isChild with isTarget | rfl
          · exact .inr (by simp [isTarget])
          · exact .inl List.mem_cons_self
        · exact .inl (by simp [isLater])
  | case3 elements clause rest notIteration ih => exact ih (by simpa using isBeneath)

end

theorem splitScope_cases (node : Node) :
    (∃ elements clauses, node.children = elements ++ clauses ∧
      node.splitScope = splitComprehension elements clauses) ∨
    node.children = node.splitScope.1 ++ node.splitScope.2 := by
  rw [splitScope]
  split
  · next params body isLambda =>
      right
      simp [children, isLambda, Shape.children, Shape.fields, Field.subtrees]
  · next items comp isList =>
      refine .inl ⟨items, comp, ?_, rfl⟩
      simp [children, isList, Shape.children, Shape.fields, Field.subtrees]
  · next items comp isSet =>
      refine .inl ⟨items, comp, ?_, rfl⟩
      simp [children, isSet, Shape.children, Shape.fields, Field.subtrees]
  · next entries comp isDict =>
      refine .inl ⟨_, comp, ?_, rfl⟩
      simp [children, isDict, Shape.children, Shape.fields, Field.subtrees]
  · exact .inr (List.append_nil _).symm

/-- What is around the scope of a node or inside it is beneath the node. -/
theorem walk_subset_of_mem_splitScope
    (isPart : part ∈ node.splitScope.1 ∨ part ∈ node.splitScope.2) : part.walk ⊆ node.walk := by
  rcases node.splitScope_cases with ⟨elements, clauses, children_eq, isSplit⟩ | children_eq
  · rw [isSplit] at isPart
    rcases mem_of_mem_splitComprehension isPart with isChild | ⟨clause, isClause, isBeneath⟩
    · exact walk_subset_of_mem_children (children_eq ▸ isChild)
    · have clauseInside := walk_subset_of_mem_children (children_eq ▸ isClause)
      exact List.Subset.trans (walk_subset_of_mem_children isBeneath) clauseInside
  · exact walk_subset_of_mem_children (children_eq ▸ List.mem_append.2 isPart)

/-- A name beneath a node is beneath what is around the scope of the node or inside it. -/
theorem exists_part_of_mem_walk (isInside : occurrence ∈ node.walk)
    (isName : occurrence.shape = .name id) (differs : occurrence ≠ node) :
    ∃ part, (part ∈ node.splitScope.1 ∨ part ∈ node.splitScope.2) ∧ occurrence ∈ part.walk ∧
      sizeOf part < sizeOf node := by
  rw [walk_eq] at isInside
  rcases List.mem_flatMap.1 ((List.mem_cons.1 isInside).resolve_left differs) with
    ⟨child, isChild, isBeneath⟩
  have smaller := sizeOf_lt_of_mem_children isChild
  rcases node.splitScope_cases with ⟨elements, clauses, children_eq, isSplit⟩ | children_eq
  · rw [children_eq] at isChild
    rw [isSplit]
    rcases mem_splitComprehension isChild with isInner | ⟨noName, areParts⟩
    · exact ⟨child, .inr isInner, isBeneath, smaller⟩
    -- the child is the clause that is split, so the name is in one of its targets or its iterable
    · rw [walk_eq] at isBeneath
      rcases List.mem_cons.1 isBeneath with rfl | isBeneath
      · rw [nameId?, isName] at noName
        cases noName
      · rcases List.mem_flatMap.1 isBeneath with ⟨part, isPart, isBeneath⟩
        have smallest := sizeOf_lt_of_mem_children isPart
        exact ⟨part, areParts part isPart, isBeneath, Nat.lt_trans smallest smaller⟩
  · exact ⟨child, List.mem_append.1 (children_eq ▸ isChild), isBeneath, smaller⟩

theorem Free.mem_walk (free : Free id node occurrence) :
    occurrence ∈ node.walk ∧ occurrence.shape = .name id := by
  induction free with
  | name isName => exact ⟨self_mem_walk _, isName⟩
  | outer isPart _ ih => exact ⟨walk_subset_of_mem_splitScope (.inl isPart) ih.1, ih.2⟩
  | inner isPart _ _ ih => exact ⟨walk_subset_of_mem_splitScope (.inr isPart) ih.1, ih.2⟩

/-- A name that nothing in a node captures is free wherever it occurs. -/
theorem free_of_not_captures {node : Node} (isInside : occurrence ∈ node.walk)
    (isName : occurrence.shape = .name id) (spared : ¬node.Captures id) :
    Free id node occurrence := by
  by_cases same : occurrence = node
  · exact same ▸ .name isName
  · rcases exists_part_of_mem_walk isInside isName same with ⟨part, isPart, isBeneath, smaller⟩
    have sparedPart : ¬part.Captures id := fun captures =>
      spared (captures.mono (walk_subset_of_mem_splitScope isPart))
    have free := free_of_not_captures isBeneath isName sparedPart
    rcases isPart with isOuter | isInner
    · exact .outer isOuter free
    · exact .inner isInner free fun binds => spared binds.captures
termination_by sizeOf node

end

end Node

/-! ### The uses of an expression -/

section

variable {expression statement : Node} {reference : Reference}

theorem mem_nameUses : reference ∈ nameUses expression statement ↔
    ∃ id occurrence, Node.Free id expression occurrence ∧ ¬expression.Captures id ∧
      reference = .atNode .use id occurrence statement := by
  rw [nameUses, List.mem_filterMap]
  constructor
  · rintro ⟨occurrence, isInside, found⟩
    rcases Option.bind_eq_some_iff.1 found with ⟨id, isName, found⟩
    have isName := Node.nameId?_eq_some.1 isName
    split at found
    · cases found
    · next unbound =>
        rcases found with ⟨⟩
        have spared : ¬expression.Captures id := mt Node.captures_iff.1 unbound
        exact ⟨id, occurrence, Node.free_of_not_captures isInside isName spared, spared, rfl⟩
  · rintro ⟨id, occurrence, free, spared, rfl⟩
    rcases free.mem_walk with ⟨isInside, isName⟩
    refine ⟨occurrence, isInside, ?_⟩
    rw [Node.nameId?_eq_some.2 isName]
    exact if_neg (mt Node.captures_iff.2 spared)

/-- The uses in a set are those at certain places of certain names, one for each place and name. -/
def ReportsExactly (statement : Node) (occurs : String → Node → Prop) (uses : RefSet) : Prop :=
  (∀ reference ∈ uses.toList, ∃ id occurrence, occurs id occurrence ∧
      reference = .atNode .use id occurrence statement) ∧
    ∀ id occurrence, occurs id occurrence →
      ∃! reference, reference ∈ uses.toList ∧
        reference.name = id ∧ reference.location = occurrence.location

/-- The uses of an expression are its free names but for those that something in it captures. -/
theorem reportsExactly_nameUses (statement : Node)
    (plain : ∀ id, expression.Mentions id → ':' ∉ id.toList) :
    ReportsExactly statement
      (fun id occurrence => Node.Free id expression occurrence ∧ ¬expression.Captures id)
      (.ofList (nameUses expression statement)) := by
  have isPlain : ∀ {reference}, reference ∈ nameUses expression statement →
      reference.HasPlainName := by
    intro reference isUse
    rcases mem_nameUses.1 isUse with ⟨id, occurrence, free, -, rfl⟩
    exact plain id ⟨occurrence, free.mem_walk⟩
  constructor
  · intro reference isMember
    rcases mem_nameUses.1 (KeyedSet.mem_ofList isMember) with ⟨id, occurrence, free, spared, same⟩
    exact ⟨id, occurrence, ⟨free, spared⟩, same⟩
  · rintro id occurrence ⟨free, spared⟩
    let given := Reference.atNode .use id occurrence statement
    have isUse : given ∈ nameUses expression statement :=
      mem_nameUses.2 ⟨id, occurrence, free, spared, rfl⟩
    rcases KeyedSet.mem_keys.1 (KeyedSet.mem_keys_ofList.2 (List.mem_map_of_mem isUse)) with
      ⟨reference, isMember, sameKey⟩
    have plainMember := isPlain (KeyedSet.mem_ofList isMember)
    refine ⟨reference, ⟨isMember, ?_, ?_⟩, ?_⟩
    · exact (Reference.name_level_eq_of_key_eq plainMember (isPlain isUse) sameKey).1
    · exact Location.key_injective
        (Reference.location_key_eq_of_key_eq plainMember (isPlain isUse) sameKey)
    -- a use is told apart by its name and its location
    · rintro other ⟨isOther, sameName, sameLocation⟩
      apply KeyedSet.eq_of_key_eq isOther isMember
      rw [sameKey]
      change other.key = given.key
      rw [Reference.key, level_of_mem_nameUses (KeyedSet.mem_ofList isOther), sameName, sameLocation]
      rfl

end

namespace Analysis

/-! ### Names that are captured and names that are not -/

def iterable : Node :=
  onLine 1 16 18 (.name "xs")

/-- A comprehension `[x * k for x in xs if x]`. -/
def products : Node :=
  onLine 1 0 24 (.list
    [onLine 1 1 6 (.binaryOp "*" (onLine 1 1 2 (.name "x")) (onLine 1 5 6 (.name "k")))]
    [onLine 1 7 18 (.compFor [onLine 1 11 12 (.name "x")] iterable),
      onLine 1 19 23 (.compIf (onLine 1 22 23 (.name "x")))])

def fallback : Node :=
  onLine 1 37 38 (.name "d")

/-- A lambda `lambda y=d: y + k`. -/
def adder : Node :=
  onLine 1 28 45 (.lambda [onLine 1 35 38 (.parameter "y" none (some fallback) false false)]
    (onLine 1 40 45 (.binaryOp "+" (onLine 1 40 41 (.name "y")) (onLine 1 44 45 (.name "k")))))

/-- The comprehension and the lambda in one expression. -/
def scopedSum : Node :=
  onLine 1 0 46 (.binaryOp "+" products adder)

/-- The iterable and the default are read outside the scopes. -/
theorem reportsExactly_scopedSum :
    (∃! reference, reference ∈ (KeyedSet.ofList (nameUses scopedSum scopedSum)).toList ∧
      reference.name = "xs" ∧ reference.location = iterable.location) ∧
    ∃! reference, reference ∈ (KeyedSet.ofList (nameUses scopedSum scopedSum)).toList ∧
      reference.name = "d" ∧ reference.location = fallback.location := by
  have plain : ∀ id, scopedSum.Mentions id → ':' ∉ id.toList :=
    Node.plain_of_walk (by decide +kernel)
  rcases reportsExactly_nameUses scopedSum plain with ⟨-, reports⟩
  have isLeft : products ∈ scopedSum.splitScope.1 := List.mem_cons_self
  have isRight : adder ∈ scopedSum.splitScope.1 := List.mem_cons_of_mem _ List.mem_cons_self
  have freeIterable : Node.Free "xs" products iterable := .outer List.mem_cons_self (.name rfl)
  have freeFallback : Node.Free "d" adder fallback :=
    .outer List.mem_cons_self (.outer List.mem_cons_self (.name rfl))
  constructor
  · apply reports "xs" iterable
    exact ⟨.outer isLeft freeIterable, mt Node.captures_iff.1 (by decide +kernel)⟩
  · apply reports "d" fallback
    exact ⟨.outer isRight freeFallback, mt Node.captures_iff.1 (by decide +kernel)⟩

def outsider : Node :=
  onLine 1 18 19 (.name "x")

/-- An expression `[x for x in xs] + x`. -/
def reusedName : Node :=
  onLine 1 0 19 (.binaryOp "+"
    (onLine 1 0 15 (.list [onLine 1 1 2 (.name "x")]
      [onLine 1 3 14 (.compFor [onLine 1 7 8 (.name "x")] (onLine 1 12 14 (.name "xs")))]))
    outsider)

def container : Node :=
  onLine 1 7 8 (.name "a")

/-- An element that a comprehension assigns, as in `[0 for a[i] in xs]`. -/
def assignedElement : Node :=
  onLine 1 7 11 (.index container [onLine 1 9 10 (.name "i")])

def elementAssigning : Node :=
  onLine 1 0 18 (.list [onLine 1 1 2 (.literal (.natural 0))]
    [onLine 1 3 17 (.compFor [assignedElement] (onLine 1 15 17 (.name "xs")))])

/-- A name with a colon, in a file. -/
def colonName : Node :=
  ⟨.name "a:USE@p", ⟨1, 4, 1, 5, some "q"⟩⟩

/-- A sum of two names whose uses have the same key. -/
def confusedNames : Node :=
  onLine 1 0 5 (.binaryOp "+" ⟨.name "a", ⟨1, 4, 1, 5, some "p:USE@q"⟩⟩ colonName)

theorem not_bindsInside_elementAssigning : ¬elementAssigning.BindsInside "a" := by
  rintro (⟨isLambda, -, -⟩ | ⟨isClause, isIteration, isTarget, writes, isName⟩)
  · cases isLambda
  · rcases List.mem_singleton.1 isClause with rfl
    rcases isIteration with ⟨⟩
    rcases List.mem_singleton.1 isTarget with rfl
    cases writes with
    | self => cases isName
    | index isIndex writes =>
        rcases isIndex with ⟨⟩
        -- the base of a subscript is updated, so it is not bound
        cases writes with
        | tuple isTuple => cases isTuple
        | list isList => cases isList
        | starred isStarred => cases isStarred
        | dot isDot => cases isDot
        | index isIndex => cases isIndex
    | tuple isTuple => cases isTuple
    | list isList => cases isList
    | starred isStarred => cases isStarred
    | dot isDot => cases isDot

theorem not_reportsExactly_of_absent {expression occurrence : Node} {id : String}
    (free : Node.Free id expression occurrence)
    (absent : ∀ use ∈ (KeyedSet.ofList (nameUses expression expression)).toList, use.name ≠ id) :
    ¬ReportsExactly expression (fun id occurrence => Node.Free id expression occurrence)
      (.ofList (nameUses expression expression)) := by
  intro reports
  rcases reports.2 id occurrence free with ⟨use, ⟨isUse, sameName, -⟩, -⟩
  exact absent use isUse sameName

/-- A name outside a comprehension is not reported if the comprehension binds it, nor is a name that
the comprehension only writes to; and with colons in names, one use may stand for two. -/
theorem not_reportsExactly_captured :
    (¬ReportsExactly reusedName (fun id occurrence => Node.Free id reusedName occurrence)
      (.ofList (nameUses reusedName reusedName))) ∧
    (¬ReportsExactly elementAssigning
      (fun id occurrence => Node.Free id elementAssigning occurrence)
      (.ofList (nameUses elementAssigning elementAssigning))) ∧
    ¬ReportsExactly confusedNames (fun id occurrence => Node.Free id confusedNames occurrence)
      (.ofList (nameUses confusedNames confusedNames)) := by
  have freeOutsider : Node.Free "x" reusedName outsider :=
    .outer (List.mem_cons_of_mem _ List.mem_cons_self) (.name rfl)
  have freeBase : Node.Free "a" assignedElement container := .outer List.mem_cons_self (.name rfl)
  have freeContainer : Node.Free "a" elementAssigning container :=
    .inner (List.mem_cons_of_mem _ List.mem_cons_self) freeBase not_bindsInside_elementAssigning
  have freeColonName : Node.Free "a:USE@p" confusedNames colonName :=
    .outer (List.mem_cons_of_mem _ List.mem_cons_self) (.name rfl)
  refine ⟨?_, ?_, ?_⟩
  · exact not_reportsExactly_of_absent freeOutsider (by decide +kernel)
  · exact not_reportsExactly_of_absent freeContainer (by decide +kernel)
  · exact not_reportsExactly_of_absent freeColonName (by decide +kernel)

end Analysis

end FlowAnalysis
