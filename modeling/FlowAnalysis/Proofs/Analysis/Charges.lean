import FlowAnalysis.Proofs.Analysis.FirstVisit

/-!
# Which statements calls are charged to

The statements that a program places are parts of the program, and the parts have no names and calls
in common, except that the header of a last clause, which is the whole clause, stands in front of
the statements in its body. So what a call mutates is charged to one statement, and besides to the
headers of the last clauses that the call is in.
-/

namespace FlowAnalysis

namespace Node

/-- A name or a call in a node stands at a location. -/
def Occupies (node : Node) (location : Location) : Prop :=
  ∃ inner ∈ node.walk, inner.location = location ∧
    (inner.nameId?.isSome ∨ ∃ func args, inner.shape = .call func args)

/-- A node has a statement placed by its body. -/
def Heads (header statement : Node) : Prop :=
  statement ∈ (nestingAll header.body).labels

/-- Statements that occupy none but some locations, each of them a location of its own if no
location is listed twice, except that headers stand before the statements that they head. -/
structure Apart (statements : List Node) (locations : List Location) : Prop where
  inside : ∀ statement ∈ statements, ∀ location, statement.Occupies location → location ∈ locations
  apart : locations.Nodup → statements.Pairwise fun statement later =>
    ∀ location, statement.Occupies location → later.Occupies location → statement.Heads later

namespace Apart

variable {statements later : List Node} {locations others : List Location}

theorem nil : Apart [] [] :=
  ⟨by simp, fun _ => .nil⟩

theorem mono (isApart : Apart statements locations) (fewer : locations.Subperm others) :
    Apart statements others := by
  refine ⟨?_, fun distinct => ?_⟩
  · intro statement isMember location occupies
    exact fewer.subset (isApart.inside statement isMember location occupies)
  · rcases fewer with ⟨locations', isPerm, isSublist⟩
    exact isApart.apart (isPerm.nodup_iff.1 (distinct.sublist isSublist))

theorem append (isApart : Apart statements locations) (isApart' : Apart later others) :
    Apart (statements ++ later) (locations ++ others) := by
  refine ⟨?_, fun distinct => ?_⟩
  · intro statement isMember location occupies
    rcases List.mem_append.1 isMember with isMember | isMember
    · exact List.mem_append_left _ (isApart.inside statement isMember location occupies)
    · exact List.mem_append_right _ (isApart'.inside statement isMember location occupies)
  · rcases List.nodup_append.1 distinct with ⟨distinctFirst, distinctLater, disjoint⟩
    refine List.pairwise_append.2 ⟨isApart.apart distinctFirst, isApart'.apart distinctLater, ?_⟩
    intro statement isMember other isLater location occupies occupies'
    have isListed := isApart.inside statement isMember location occupies
    exact absurd rfl (disjoint _ isListed _ (isApart'.inside other isLater location occupies'))

theorem single (node : Node) : Apart [node] node.locations := by
  refine ⟨?_, fun _ => List.pairwise_singleton _ _⟩
  rintro statement isMember location ⟨inner, isInside, rfl, -⟩
  rw [List.mem_singleton.1 isMember] at isInside
  exact List.mem_flatMap.2 ⟨inner, isInside, List.mem_cons_self⟩

/-- A binding is not at a place of its own. -/
theorem binding (targets sources : List Node) (location : Location) :
    Apart [.binding targets sources location] ((targets ++ sources).flatMap Node.locations) := by
  refine ⟨?_, fun _ => List.pairwise_singleton _ _⟩
  rintro statement isMember _ ⟨inner, isInside, rfl, isNameOrCall⟩
  rw [List.mem_singleton.1 isMember, walk_eq] at isInside
  rcases List.mem_cons.1 isInside with rfl | isInside
  · rcases isNameOrCall with isName | ⟨_, _, isCall⟩
    · cases isName
    · cases isCall
  · rcases List.mem_flatMap.1 isInside with ⟨child, isChild, isInside⟩
    refine List.mem_flatMap.2 ⟨child, ?_, ?_⟩
    · simpa [children, Node.binding, Shape.children, Shape.fields, Field.subtrees] using isChild
    · exact List.mem_flatMap.2 ⟨inner, isInside, List.mem_cons_self⟩

theorem placed (item : WithItem Node) :
    Apart [item.placed] ((item.context :: item.target.toList).flatMap Node.locations) := by
  rw [WithItem.placed]
  split
  · next target isTarget =>
      rw [isTarget]
      apply (binding _ _ _).mono
      exact (List.Perm.swap ..).flatMap_right _ |>.subperm
  · next isNone =>
      rw [isNone]
      rw [Option.toList_none, List.flatMap_singleton]
      exact single _

theorem placedAll (items : List (WithItem Node)) : Apart (items.map WithItem.placed)
    ((items.flatMap fun item => item.context :: item.target.toList).flatMap Node.locations) := by
  induction items with
  | nil => exact nil
  | cons item rest ih =>
      rw [List.flatMap_cons, List.flatMap_append]
      exact (placed item).append ih

/-- A header stands before the statements that it heads. -/
theorem clause {header : Node} {body : List Node}
    (isApart : Apart (nestingAll body).labels (body.flatMap Node.locations))
    (isBody : header.body = body) (areChildren : body.Sublist header.children) (empty : Bool) :
    Apart (nestingClause header (nestingAll body) empty).labels header.locations := by
  have within : (body.flatMap Node.locations).Sublist header.locations := by
    rw [locations_eq]
    apply List.Sublist.cons
    exact (areChildren.flatMap _).trans (List.sublist_append_right _ _)
  rw [nestingClause]
  split
  · exact nil.mono (List.nil_subperm)
  · refine ⟨?_, fun distinct => ?_⟩
    · intro statement isMember location occupies
      rcases List.mem_cons.1 isMember with rfl | isMember
      · exact (single statement).inside statement List.mem_cons_self location occupies
      · exact within.subset (isApart.inside statement isMember location occupies)
    · refine List.pairwise_cons.2 ⟨?_, isApart.apart (distinct.sublist within)⟩
      intro statement isMember _ _ _
      rw [Heads, isBody]
      exact isMember

end Apart

/-- The places at which handlers bind names are listed before everything else in a statement. -/
theorem subperm_locations_tryBlock (body : List Node) (handlers : List (ExceptHandler Node))
    (orelse finalbody : List Node) (location : Location) :
    (body.flatMap locations ++ ((handlers.flatMap fun handler =>
      handler.location :: (handler.cond.toList ++ handler.body).flatMap locations) ++
        (orelse.flatMap locations ++ finalbody.flatMap locations))).Subperm
      (locations ⟨.tryBlock body handlers orelse finalbody, location⟩) := by
  have split := (List.flatMap_append_perm handlers (fun handler => [handler.location])
    fun handler => (handler.cond.toList ++ handler.body).flatMap locations).symm
  have gathered := (split.append_right
    (orelse.flatMap locations ++ finalbody.flatMap locations)).append_left (body.flatMap locations)
  rw [List.append_assoc] at gathered
  apply (gathered.trans (List.perm_append_comm_assoc _ _ _)).subperm.trans
  apply List.Sublist.subperm
  simp [locations_eq, bindingLocations, children, Shape.children, Shape.fields, Field.subtrees,
    List.flatMap_assoc, List.map_eq_flatMap]

mutual

/-- What a statement places is apart. -/
theorem apart_nesting : (node : Node) → Apart node.nesting.labels node.locations
  | ⟨shape, location⟩ => by
      cases shape
      case conditional cond body elifs orelse =>
        have isApart := (Apart.single cond).append
          ((apart_nestingAll body).append (apart_nestingClauses elifs (apart_nestingOrelse orelse)))
        rw [nesting, Forest.labels, Forest.labels, List.append_nil, Forest.labels_append]
        apply isApart.mono
        apply List.Sublist.subperm
        simp [locations_eq, children, Shape.children, Shape.fields, Field.subtrees]
      case whileLoop cond body orelse =>
        have isApart := (Apart.single cond).append
          ((apart_nestingAll body).append (apart_nestingAll orelse))
        apply isApart.mono
        apply List.Sublist.subperm
        simp [locations_eq, children, Shape.children, Shape.fields, Field.subtrees]
      case forLoop targets iter body orelse declLocation =>
        have isApart := (Apart.binding targets iter declLocation).append
          ((apart_nestingAll body).append (apart_nestingAll orelse))
        apply isApart.mono
        apply List.Sublist.subperm
        simp [locations_eq, children, Shape.children, Shape.fields, Field.subtrees]
      case withBlock items body =>
        have isApart := (Apart.placedAll items).append (apart_nestingAll body)
        rw [nesting, Forest.labels_append, Forest.labels_leaves]
        apply isApart.mono
        apply List.Sublist.subperm
        simp [locations_eq, children, Shape.children, Shape.fields, Field.subtrees]
      case tryBlock body handlers orelse finalbody =>
        have isApart := (apart_nestingAll body).append ((apart_nestingHandlers handlers).append
          ((apart_nestingAll orelse).append (apart_nestingAll finalbody)))
        simp only [nesting, Forest.labels_append]
        apply isApart.mono
        exact subperm_locations_tryBlock body handlers orelse finalbody location
      all_goals exact Apart.single _

theorem apart_nestingAll : (nodes : List Node) →
    Apart (nestingAll nodes).labels (nodes.flatMap locations)
  | [] => .nil
  | first :: rest => by
      rw [nestingAll, Forest.labels_append]
      exact (apart_nesting first).append (apart_nestingAll rest)

theorem apart_nestingClauses : (elifs : List (ElifClause Node)) → {last : Forest Node} →
    {others : List Location} → Apart last.labels others →
    Apart (nestingClauses elifs last).labels
      (((elifs.flatMap fun clause => clause.cond :: clause.body).flatMap locations) ++ others)
  | [], _, _, isApart => isApart
  | ⟨cond, body⟩ :: rest, last, others, isApart => by
      have isApart' := (Apart.single cond).append
        ((apart_nestingAll body).append (apart_nestingClauses rest isApart))
      simpa [nestingClauses, Forest.labels] using isApart'

theorem apart_nestingOrelse : (orelse : Option Node) →
    Apart (nestingOrelse orelse).labels (orelse.toList.flatMap locations)
  | none => .nil
  | some ⟨shape, location⟩ => by
      rw [Option.toList_some, List.flatMap_singleton]
      cases shape
      case elseClause body | module body | definition _ _ body _ | classDefinition _ _ body _ =>
        apply Apart.clause (apart_nestingAll body) rfl
        simp [children, Shape.children, Shape.fields, Field.subtrees]
      all_goals exact Apart.nil.mono List.nil_subperm

theorem apart_nestingHandlers : (handlers : List (ExceptHandler Node)) →
    Apart (nestingHandlers handlers).labels (handlers.flatMap fun handler =>
      handler.location :: (handler.cond.toList ++ handler.body).flatMap locations)
  | [] => .nil
  | ⟨some cond, some name, body, location⟩ :: rest => by
      have isApart := ((Apart.binding [⟨.name name, location⟩] [cond] location).append
        (apart_nestingAll body)).append (apart_nestingHandlers rest)
      simp only [nestingHandlers, Forest.labels_append, Forest.labels, List.nil_append]
      apply isApart.mono
      apply List.Sublist.subperm
      simp [locations_eq, bindingLocations, children, Shape.children, Shape.fields, Field.subtrees]
  | ⟨some cond, none, body, location⟩ :: rest => by
      have isApart := ((apart_nesting cond).append (apart_nestingAll body)).append
        (apart_nestingHandlers rest)
      simp only [nestingHandlers, Forest.labels_append]
      apply isApart.mono
      apply List.Sublist.subperm
      simp
  | ⟨none, _, body, location⟩ :: rest => by
      have isApart := (apart_nestingAll body).append (apart_nestingHandlers rest)
      simp only [nestingHandlers, Forest.labels_append]
      apply isApart.mono
      apply List.Sublist.subperm
      simp

end

/-- Of two statements that are placed and have a name or a call at the same location, one heads the
other. -/
theorem Apart.heads {statements : List Node} {locations : List Location}
    (isApart : Apart statements locations) (distinct : locations.Nodup) {statement other : Node}
    (isMember : statement ∈ statements) (isOther : other ∈ statements) {location : Location}
    (occupies : statement.Occupies location) (occupies' : other.Occupies location) :
    statement = other ∨ statement.Heads other ∨ other.Heads statement := by
  let related : Node → Node → Prop := fun statement other => ∀ location,
    statement.Occupies location → other.Occupies location →
      statement.Heads other ∨ other.Heads statement
  have symmetric : Std.Symm related :=
    ⟨fun _ _ heads location occupies occupies' => (heads location occupies' occupies).symm⟩
  have areRelated : statements.Pairwise related :=
    (isApart.apart distinct).imp fun heads location occupies occupies' =>
      .inl (heads location occupies occupies')
  by_cases same : statement = other
  · exact .inl same
  · exact .inr (areRelated.forall isMember isOther same location occupies occupies')

end Node

namespace Analyzer

/-- A statement is known to mutate something at a location. -/
def ChargedAt (analyzer : Analyzer) (statement : Node) (location : Location) : Prop :=
  ∃ reference ∈ (analyzer.known statement).updates.toList,
    reference.kind = .mutation ∧ reference.location = location

instance (analyzer : Analyzer) (statement : Node) (location : Location) :
    Decidable (analyzer.ChargedAt statement location) :=
  inferInstanceAs (Decidable (∃ reference ∈ (analyzer.known statement).updates.toList, _))

end Analyzer

namespace Analysis

section

variable {root : Node} {analyzer final : Analyzer} {result : AnalysisResult}
  (distinct : root.innerPlaces.Nodup)
  (uncached : ∀ location ∈ root.innerPlaces, analyzer.cache.get? location.key = none)

include distinct uncached

/-- A statement updates something only where a name or a call stands in it. -/
theorem occupies_of_update
    (run : (Analysis.graph (.ofStatements root.parts) .empty).run analyzer = .ok (result, final))
    {statement : Node} {id : BlockId}
    (isPlaced : statement ∈ (Graph.ofStatements root.parts).statements id) {found : DefUse}
    (isKnown : final.cached? statement = some found) {reference : Reference}
    (isUpdate : reference ∈ found.updates.toList) : statement.Occupies reference.location := by
  have built : Graph.ofRoot ⟨.module root.parts, root.location⟩ =
      .ok (.ofStatements root.parts) := rfl
  have beneath := transGen_isPart_of_mem_statements isPlaced
  have belongs := holds_of_run_graph distinct uncached run _ _ isKnown statement beneath rfl
  rcases learns_of_graph built run with ⟨front, back, listed, learns, -⟩
  rcases learns.changes.exists_composes isKnown with
    wasKnown | ⟨inner, between, ⟨learned, isLearned, -, consulted⟩, sameKey, -, composes⟩
  · cases (uncached _ (Node.location_mem_innerPlaces beneath)).symm.trans wasKnown
  · have isReachable : learned ∈ (Graph.ofStatements root.parts).reachableStatements :=
      listed ▸ List.mem_append_left _ isLearned
    rcases List.mem_flatMap.1 isReachable with ⟨id', -, isPlaced'⟩
    have beneath' := (transGen_isPart_of_mem_statements isPlaced').trans_left consulted.within
    rcases Node.eq_of_key_eq_of_beneath distinct beneath' beneath sameKey with rfl
    rcases composes (belongs.opensNamedScope_eq_false isUpdate) with ⟨own, running, updatesNames, rfl⟩
    rcases exists_name_or_call_of_update updatesNames isUpdate with
      ⟨name, isInside, isName, sameLocation⟩ |
        ⟨call, inScope, func, args, isCall, -, sameLocation⟩
    · refine ⟨name, isInside, sameLocation.symm, .inl ?_⟩
      rw [Node.nameId?, isName]
      rfl
    · have isInside := (Node.walkScope_sublist_walk _).subset inScope
      exact ⟨call, isInside, sameLocation.symm, .inr ⟨func, args, isCall⟩⟩

end

section

variable {root : Node} {code : List Node} {analyzer : Analyzer}
  (isModule : root.shape = .module code) (distinct : root.locations.Nodup)
  (uncached : ∀ location ∈ root.innerPlaces, analyzer.cache.get? location.key = none)

include isModule distinct uncached

/-- After the analysis of a module, statements that are charged with mutations at the same location
are one and the same, unless one of them is the header of a last clause and the other one is placed
by the body of the clause. -/
theorem exists_module_heads_of_charged :
    ∃ result final, (Analysis.module root).run analyzer = .ok (result, final) ∧
      ∀ {statement other id id' location}, statement ∈ (Graph.ofStatements code).statements id →
        other ∈ (Graph.ofStatements code).statements id' → final.ChargedAt statement location →
        final.ChargedAt other location →
          statement = other ∨ statement.Heads other ∨ other.Heads statement := by
  have partsEq : root.parts = code := Node.parts_of_module isModule
  have built : Graph.ofRoot root = .ok (.ofStatements code) := by
    rw [Graph.ofRoot, isModule]
  rcases exists_run_module (.inl ⟨_, isModule⟩) analyzer with ⟨result, final, run⟩
  refine ⟨result, final, run, ?_⟩
  rw [run_module built] at run
  have areDistinct : (code.flatMap Node.locations).Nodup := by
    rw [Node.locations_eq] at distinct
    refine List.Nodup.sublist ?_ distinct
    simp [Node.children, isModule, Shape.children, Shape.fields, Field.subtrees]
  subst partsEq
  have occupies : ∀ {statement id location},
      statement ∈ (Graph.ofStatements root.parts).statements id →
      final.ChargedAt statement location → statement.Occupies location := by
    rintro statement id _ isPlaced ⟨reference, isUpdate, -, rfl⟩
    cases isKnown : final.cached? statement with
    | none =>
        rw [Analyzer.known, isKnown] at isUpdate
        cases isUpdate
    | some found =>
        rw [Analyzer.known_eq isKnown] at isUpdate
        exact occupies_of_update (Node.innerPlaces_nodup distinct) uncached run isPlaced isKnown
          isUpdate
  have isLabel : ∀ {statement id}, statement ∈ (Graph.ofStatements root.parts).statements id →
      statement ∈ (Node.nestingAll root.parts).labels := by
    intro statement id isPlaced
    rw [← Command.nestingAll_ofNodes]
    exact Graph.mem_labels_of_mem_statements isPlaced
  intro statement other id id' location isPlaced isPlaced' charged charged'
  exact (Node.apart_nestingAll root.parts).heads areDistinct (isLabel isPlaced) (isLabel isPlaced')
    (occupies isPlaced charged) (occupies isPlaced' charged')

end

/-! ### A clause whose header is charged too -/

/-- A call of a function with the variable `x`, in the body of something. -/
def callInBody (line : Nat) (name : String) : Node :=
  onLine line 2 6 (.call (onLine line 2 3 (.name name)) [⟨onLine line 4 5 (.name "x"), none, false, false⟩])

def callingClause : Node :=
  ⟨.elseClause [callInBody 4 "g"], ⟨3, 0, 4, 6, none⟩⟩

def alternativeCalls : Node :=
  ⟨.conditional (onLine 1 3 4 (.name "c")) [callInBody 2 "f"] [] (some callingClause),
    ⟨1, 0, 4, 6, none⟩⟩

/-- A module with a conditional that calls `f(x)` or else `g(x)`. -/
def alternativesModule : Node :=
  ⟨.module [alternativeCalls], ⟨1, 0, 5, 0, none⟩⟩

/-- Only the call itself is charged with what the call in the first branch mutates. -/
theorem eq_of_charged_alternativesModule : ∃ result final,
    (Analysis.module alternativesModule).run (.ofSpecs []) = .ok (result, final) ∧
      final.ChargedAt (callInBody 2 "f") (callInBody 2 "f").location ∧
      ∀ other id, other ∈ (Graph.ofStatements [alternativeCalls]).statements id →
        final.ChargedAt other (callInBody 2 "f").location → other = callInBody 2 "f" := by
  have isModule : alternativesModule.shape = .module [alternativeCalls] := rfl
  have distinct : alternativesModule.locations.Nodup := by decide +kernel
  have uncached : ∀ location ∈ alternativesModule.innerPlaces,
      (Analyzer.ofSpecs []).cache.get? location.key = none := fun _ _ => rfl
  rcases exists_module_heads_of_charged isModule distinct uncached with ⟨result, final, run, heads⟩
  have isPlaced : callInBody 2 "f" ∈ (Graph.ofStatements [alternativeCalls]).statements 3 :=
    List.mem_singleton_self _
  have isCharged : final.ChargedAt (callInBody 2 "f") (callInBody 2 "f").location :=
    holds_of_run (fun outcome : AnalysisResult × Analyzer =>
      outcome.2.ChargedAt (callInBody 2 "f") (callInBody 2 "f").location) (by decide +kernel) run
  refine ⟨result, final, run, isCharged, ?_⟩
  intro other id isPlaced' charged
  have isLabel : other ∈ [onLine 1 3 4 (.name "c"), callInBody 2 "f", callingClause,
      callInBody 4 "g"] := Graph.mem_labels_of_mem_statements isPlaced'
  rcases heads isPlaced isPlaced' isCharged charged with same | isHeaded | isHeader
  · exact same.symm
  · cases isHeaded
  · -- the one header among the statements is that of the other branch
    simp only [List.mem_cons, List.not_mem_nil, or_false] at isLabel
    rcases isLabel with rfl | rfl | rfl | rfl
    · cases isHeader
    · rfl
    · cases congrArg Node.location (List.mem_singleton.1 isHeader)
    · cases isHeader

/-- What the call in the last clause mutates is charged to the call and to the header of the
clause. -/
theorem charged_callingClause :
    alternativesModule.locations.Nodup ∧ callInBody 4 "g" ∈ alternativesModule.walk ∧
    callingClause ∈ (Graph.ofStatements [alternativeCalls]).statements 5 ∧
    callInBody 4 "g" ∈ (Graph.ofStatements [alternativeCalls]).statements 6 ∧
    callingClause ≠ callInBody 4 "g" ∧
    ∃ result final, (Analysis.module alternativesModule).run (.ofSpecs []) = .ok (result, final) ∧
      final.ChargedAt callingClause (callInBody 4 "g").location ∧
      final.ChargedAt (callInBody 4 "g") (callInBody 4 "g").location := by
  have isModule : alternativesModule.shape = .module [alternativeCalls] := rfl
  have isClause : callingClause ∈ alternativeCalls.children :=
    List.mem_cons_of_mem _ (List.mem_cons_of_mem _ List.mem_cons_self)
  have inClause : callInBody 4 "g" ∈ alternativeCalls.walk :=
    Node.walk_subset_of_mem_children isClause
      (Node.walk_subset_of_mem_children List.mem_cons_self (Node.self_mem_walk _))
  refine ⟨by decide +kernel, Node.walk_subset_of_mem_children List.mem_cons_self inClause,
    List.mem_singleton_self _, List.mem_singleton_self _, ?_, ?_⟩
  · intro same
    cases congrArg Node.location same
  · rcases exists_run_module (.inl ⟨_, isModule⟩) (.ofSpecs []) with ⟨result, final, run⟩
    have charged := holds_of_run (fun outcome : AnalysisResult × Analyzer =>
      outcome.2.ChargedAt callingClause (callInBody 4 "g").location ∧
        outcome.2.ChargedAt (callInBody 4 "g") (callInBody 4 "g").location) (by decide +kernel) run
    exact ⟨result, final, run, charged⟩

end Analysis

end FlowAnalysis
