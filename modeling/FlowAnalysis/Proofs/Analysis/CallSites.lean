import FlowAnalysis.Proofs.Analysis.CallUpdates
import FlowAnalysis.Proofs.Analysis.Registration

/-!
# Calls of functions of a module

What is inferred from the body of a function counts its parameters, and what is updated by a call of
the function is found by counting the arguments of the call. Where each argument stands in the place
of the parameter that it is for, the two counts agree, so a call updates the variables that it
passes for the parameters that the function mutates, and no others.
-/

namespace FlowAnalysis

/-! ### Arguments and parameters -/

/-- The place of the parameter that an argument of a call is for. An unpacked argument is for none
in particular. -/
def Argument.place? (params : List Node) (index : Nat) (argument : Argument Node) : Option Nat :=
  if argument.varargs || argument.kwargs then none
  else
    match argument.keyword with
    | none => some index
    | some keyword => params.findIdx? fun param =>
        (Analysis.parameterDefinition? param).map Reference.name == some keyword

/-- A call passes a bare name for the parameter at a place. -/
def Passes (params : List Node) (args : List (Argument Node)) (passed : String) (place : Nat) : Prop :=
  ∃ (index : Nat) (argument : Argument Node), args[index]? = some argument ∧
    argument.actual.nameId? = some passed ∧ argument.place? params index = some place

/-- Wherever a call passes a bare name, it does so in the place of the parameter. -/
def PassesInPlace (params : List Node) (args : List (Argument Node)) (passed : String) : Prop :=
  ∀ (index : Nat) (argument : Argument Node), args[index]? = some argument →
    argument.actual.nameId? = some passed → argument.place? params index = some index

theorem PassesInPlace.passes_iff {params : List Node} {args : List (Argument Node)} {passed : String}
    {place : Nat} (inPlace : PassesInPlace params args passed) :
    Passes params args passed place ↔
      ∃ argument, args[place]? = some argument ∧ argument.actual.nameId? = some passed := by
  constructor
  · rintro ⟨index, argument, isArgument, isBare, isPlace⟩
    rw [inPlace index argument isArgument isBare] at isPlace
    rcases isPlace with ⟨⟩
    exact ⟨argument, isArgument, isBare⟩
  · rintro ⟨argument, isArgument, isBare⟩
    exact ⟨place, argument, isArgument, isBare, inPlace place argument isArgument isBare⟩

namespace Analysis

/-- The updates at a call agree with a specification: a variable is updated if the call passes it
for a parameter that the specification lists, and not otherwise. -/
def UpdatesAsSpecified (spec : FunctionSpec) (params : List Node) (found : DefUse) (call : Node)
    (args : List (Argument Node)) (passed : String) : Prop :=
  (∃ reference ∈ found.updates.toList,
      reference.name = passed ∧ reference.location = call.location) ↔
    ∃ place, Passes params args passed place ∧ ParamRef.position (place + 1) ∈ spec.updates

theorem mem_positions_iff {spec : FunctionSpec} {name : String} {positions : List Nat}
    {position : Nat} (specEq : spec = { name, updates := positions.map .position }) :
    position ∈ spec.positions ↔ .position position ∈ spec.updates := by
  subst specEq
  have read : (positions.map ParamRef.position).filterMap ParamRef.position? = positions := by
    rw [List.filterMap_map]
    exact List.filterMap_some
  rw [FunctionSpec.positions, read]
  simp

theorem exists_child_of_mem_reachableStatements {code : List Node} {statement : Node}
    (isReachable : statement ∈ (Graph.ofStatements code).reachableStatements) :
    ∃ child ∈ code, statement ∈ child.nesting.labels := by
  rcases List.mem_flatMap.1 isReachable with ⟨id, -, isPlaced⟩
  have isLabel := Graph.mem_labels_of_mem_statements isPlaced
  rw [Command.nestingAll_ofNodes] at isLabel
  exact Node.mem_labels_nestingAll.1 isLabel

section

variable {root definition statement : Node} {before after : List Node} {name : String}
  {params body decorators : List Node} {analyzer final : Analyzer}
  (isDefinition : definition.shape = .definition name params body decorators)
  (isModule : root.shape = .module (before ++ definition :: after))
  (distinct : root.innerPlaces.Nodup)

include isDefinition isModule distinct

/-- Where only one definition of a module binds a name, what the analysis of other statements finds
out about does not. -/
theorem not_mayBind_of_consulted {symbols : SymbolTable}
    (only : ∀ statement, root.Within statement → statement ≠ definition →
      ¬MayBind symbols name statement)
    (isReachable : statement ∈
      (Graph.ofStatements (before ++ definition :: after)).reachableStatements)
    (differs : statement ≠ definition) {inner : Node} (consulted : Consulted statement inner) :
    ¬MayBind symbols name inner := by
  have partsEq := Node.parts_of_module isModule
  have partsEq' : root.parts = (before ++ [definition]) ++ after := by
    simp [partsEq]
  rcases exists_child_of_mem_reachableStatements isReachable with ⟨child, isChild, isLabel⟩
  have within := (Node.within_of_mem_nesting isLabel).trans consulted.within
  apply only inner (.head (by simpa [Node.IsPart, partsEq] using isChild) within)
  rintro rfl
  rcases List.mem_append.1 isChild with isBefore | isAfter
  · exact Node.key_ne_of_parts distinct partsEq isBefore List.mem_cons_self within .refl rfl
  rcases List.mem_cons.1 isAfter with isTheDefinition | isAfter
  · rw [isTheDefinition, labels_definition isDefinition] at isLabel
    exact differs (List.mem_singleton.1 isLabel)
  · exact Node.key_ne_of_parts distinct partsEq' (by simp) isAfter .refl within rfl

variable (uncached : ∀ location ∈ root.innerPlaces, analyzer.cache.get? location.key = none)

include uncached

/-- What is after a definition of a module is known only once the turn of the definition has
come. -/
theorem exists_turn_of_known {front back : List Node}
    (listed : (Graph.ofStatements (before ++ definition :: after)).reachableStatements =
      front ++ back)
    (learns : Learns analyzer front final) {child : Node} (isAfter : child ∈ after)
    (within : child.Within statement) {found : DefUse}
    (isKnown : final.cached? statement = some found) :
    ∃ earlier passed, front = earlier ++ definition :: passed ∧ definition ∉ earlier := by
  apply List.eq_append_cons_of_mem
  by_contra notYet
  have partsEq := Node.parts_of_module isModule
  have unknown : final.cached? statement = none := by
    apply unknown_of_learns partsEq distinct uncached learns _ (List.mem_cons_of_mem _ isAfter) within
    intro statement isEarlier
    exact Graph.mem_labels_of_listed_before (ofNode_definition isDefinition) listed notYet isEarlier
  rw [unknown] at isKnown
  cases isKnown

/-- What is found out about a statement after a definition of a module is found out after the turn
of the definition. -/
theorem exists_composes_of_known {earlier passed : List Node} {stop : Analyzer}
    (placed : ∀ statement ∈ earlier, statement ∈ (Node.nestingAll before).labels)
    (learnsTurn : Learns analyzer (earlier ++ [definition]) stop) (learns : Learns stop passed final)
    (areReachable : passed ⊆
      (Graph.ofStatements (before ++ definition :: after)).reachableStatements)
    {child : Node} (isAfter : child ∈ after) (within : child.Within statement) {found : DefUse}
    (isKnown : final.cached? statement = some found) :
    ∃ between, Changes (Explores stop passed) stop between ∧
      Composes between.symbols statement found := by
  have partsEq := Node.parts_of_module isModule
  have partsEq' : root.parts = (before ++ [definition]) ++ after := by
    simp [partsEq]
  have unknown : stop.cached? statement = none := by
    apply unknown_of_learns partsEq' distinct uncached learnsTurn _ isAfter within
    intro statement isLearned
    apply Node.mem_labels_nestingAll.2
    rcases List.mem_append.1 isLearned with isEarlier | isTurn
    · rcases Node.mem_labels_nestingAll.1 (placed statement isEarlier) with ⟨child, isBefore, isLabel⟩
      exact ⟨child, List.mem_append_left _ isBefore, isLabel⟩
    · refine ⟨definition, by simp, ?_⟩
      rwa [labels_definition isDefinition]
  rcases learns.changes.exists_composes isKnown with wasKnown | ⟨inner, between,
    ⟨statement', isPassed, isUnknown, consulted⟩, sameKey, changes, composes⟩
  · rw [Analyzer.cached?, wasKnown] at unknown
    cases unknown
  rcases exists_child_of_mem_reachableStatements (areReachable isPassed) with
    ⟨child', isChild, isLabel⟩
  have within' := (Node.within_of_mem_nesting isLabel).trans consulted.within
  have same : inner = statement := by
    apply Node.Within.eq_of_place_eq within' within distinct _ _ (Node.key_eq_iff.1 sameKey)
    · rwa [partsEq]
    · simp [partsEq, isAfter]
  rw [same] at composes
  exact ⟨between, changes, composes⟩

/-- After a definition of a module that is the only one to bind its name, the updates of calls agree
with the specification that is inferred from the definition, in all statements that have been found
out about, those in functions and classes included. -/
theorem exists_module_updatesAsSpecified (infers : analyzer.inferLocalFunctions = true)
    (only : ∀ statement, root.Within statement → statement ≠ definition →
      ¬MayBind analyzer.symbols name statement) :
    ∃ result final, (Analysis.module root).run analyzer = .ok (result, final) ∧
      (result.converged = true → ∀ statement ∈
        (Graph.ofStatements (before ++ definition :: after)).reachableStatements,
          ∃ found, final.cached? statement = some found) ∧
      ∀ {child statement found}, child ∈ after → child.Within statement →
        final.cached? statement = some found → ∃ earlier start analysis between,
          (earlier ++ [definition]) <+:
            (Graph.ofStatements (before ++ definition :: after)).reachableStatements ∧
          Learns analyzer earlier start ∧
          (Analysis.function definition false).run start = .ok (analysis, between) ∧
          final.symbols.lookupFunction? name = some { spec := analysis.spec } ∧
          (opensNamedScope statement = false →
            (∀ id, statement.Mentions id → ':' ∉ id.toList) →
            ∀ {call func args passed}, call ∈ statement.walkScope → call.shape = .call func args →
              func.shape = .name name → call.StandsAlone statement →
              PassesInPlace params args passed →
              UpdatesAsSpecified analysis.spec params found call args passed) := by
  have built : Graph.ofRoot root = .ok (.ofStatements (before ++ definition :: after)) := by
    rw [Graph.ofRoot, isModule]
  rcases exists_run_module (.inl ⟨_, isModule⟩) analyzer with ⟨result, final, run⟩
  refine ⟨result, final, run, ?_⟩
  rw [run_module built] at run
  rcases learns_of_graph built run with ⟨front, back, listed, learns, ends⟩
  refine ⟨fun converged statement isReachable => ?_, ?_⟩
  · rw [listed, ends converged, List.append_nil] at isReachable
    exact learns.exists_known isReachable
  intro child statement found isAfter within isKnown
  rcases exists_turn_of_known isDefinition isModule distinct uncached listed learns isAfter within
    isKnown with ⟨earlier, passed, rfl, isFirst⟩
  have listed' := listed
  rw [List.append_assoc, List.cons_append] at listed'
  rcases exists_turn_of_definition isDefinition isModule distinct uncached infers listed' isFirst
    learns with ⟨start, analysis, between, stop, learnsEarlier, analyzed, ⟨positions, specEq⟩,
      learnsTurn, learnsLater, isRegistered⟩
  have placed : ∀ statement ∈ earlier, statement ∈ (Node.nestingAll before).labels :=
    fun statement isEarlier => Graph.mem_labels_of_listed_before (ofNode_definition isDefinition)
      listed' isFirst isEarlier
  have areReachable : passed ⊆
      (Graph.ofStatements (before ++ definition :: after)).reachableStatements := by
    rw [listed']
    intro statement isPassed
    simp [isPassed]
  -- From the turn of the definition on its name stands for the function inferred from it.
  have stays : ∀ {other : Analyzer}, Changes (Explores stop passed) stop other →
      other.symbols.lookupFunction? name = some { spec := analysis.spec } := by
    intro other changes
    have isLearned : definition ∈ earlier ++ [definition] := by
      simp
    apply lookup_of_changes learnsTurn isLearned isRegistered _ changes
    intro statement isPassed differs inner consulted
    exact not_mayBind_of_consulted isDefinition isModule distinct only (areReachable isPassed)
      differs consulted
  rcases exists_composes_of_known isDefinition isModule distinct uncached placed learnsTurn
    learnsLater areReachable isAfter within isKnown with ⟨last, changes, composes⟩
  refine ⟨earlier, start, analysis, between, ⟨passed ++ back, ?_⟩, learnsEarlier, analyzed,
    stays learnsLater.changes, ?_⟩
  · simp [listed']
  intro noScope plain call func args mutated inScope isCall isName alone inPlace
  rcases composes.exists_update_iff noScope plain inScope isCall alone with ⟨running, updates_iff⟩
  rw [UpdatesAsSpecified, updates_iff, mem_mutatedVariables_iff isName (stays changes)]
  simp only [inPlace.passes_iff, ← mem_positions_iff specEq]
  constructor
  · rintro ⟨index, argument, isArgument, isBare, isPosition⟩
    exact ⟨index, ⟨argument, isArgument, isBare⟩, isPosition⟩
  · rintro ⟨index, ⟨argument, isArgument, isBare⟩, isPosition⟩
    exact ⟨index, argument, isArgument, isBare, isPosition⟩

end

/-! ### Calls of a function that extends its first parameter -/

def twoParams : List Node :=
  [onLine 1 6 7 (.parameter "a" none none false false),
    onLine 1 9 10 (.parameter "b" none none false false)]

/-- A function that extends its first parameter, `def f(a, b): a += c`. -/
def extendingFunction : Node :=
  ⟨.definition "f" twoParams
    [onLine 2 2 8 (.assign (some "+") [onLine 2 2 3 (.name "a")] [onLine 2 7 8 (.name "c")])] [],
    ⟨1, 0, 2, 8, none⟩⟩

def extendingSpec : FunctionSpec :=
  { name := "f", updates := [.position 1] }

/-- A module of the function and a statement. -/
def callingModule (statement : Node) : Node :=
  ⟨.module [extendingFunction, statement], ⟨1, 0, 4, 0, none⟩⟩

def bareArgument (column : Nat) (id : String) (keyword : Option String) : Argument Node :=
  ⟨onLine 3 column (column + 1) (.name id), keyword, false, false⟩

def argumentsInPlace : List (Argument Node) :=
  [bareArgument 2 "v" none, bareArgument 7 "w" (some "b")]

/-- A call `f(v, b=w)`. -/
def callInPlace : Node :=
  onLine 3 0 9 (.call (onLine 3 0 1 (.name "f")) argumentsInPlace)

theorem passesInPlace_argumentsInPlace (passed : String) :
    PassesInPlace twoParams argumentsInPlace passed := by
  rintro (_ | _ | index) argument ⟨⟩ _
  · rfl
  · decide

theorem not_mayBind_callingModule {symbols : SymbolTable} {calling statement : Node}
    (leaf : calling.parts = []) (spared : ¬MayBind symbols "f" calling)
    (within : (callingModule calling).Within statement) (differs : statement ≠ extendingFunction) :
    ¬MayBind symbols "f" statement := by
  rcases Relation.ReflTransGen.cases_head within with rfl | ⟨part, isPart, inPart⟩
  · exact id
  rcases List.mem_cons.1 (isPart : part ∈ [_, _]) with rfl | isLast
  · rcases Relation.ReflTransGen.cases_head inPart with rfl | ⟨inner, isInner, inBody⟩
    · exact absurd rfl differs
    rcases List.mem_singleton.1 (isInner : inner ∈ [_]) with rfl
    rw [Node.Within.eq_of_parts_eq_nil inBody rfl]
    exact id
  · rcases List.mem_singleton.1 isLast with rfl
    rwa [Node.Within.eq_of_parts_eq_nil inPart leaf]

/-- The first argument of the call is updated, and the second one is not. -/
theorem updates_callInPlace : ∃ result final found,
    (Analysis.module (callingModule callInPlace)).run (.ofSpecs []) = .ok (result, final) ∧
      final.cached? callInPlace = some found ∧
      (∃ reference ∈ found.updates.toList,
        reference.name = "v" ∧ reference.location = callInPlace.location) ∧
      ¬∃ reference ∈ found.updates.toList,
        reference.name = "w" ∧ reference.location = callInPlace.location := by
  have distinct : (callingModule callInPlace).innerPlaces.Nodup :=
    Node.innerPlaces_nodup (by decide +kernel)
  have uncached : ∀ location ∈ (callingModule callInPlace).innerPlaces,
      (Analyzer.ofSpecs []).cache.get? location.key = none := fun _ _ => rfl
  have only : ∀ statement, (callingModule callInPlace).Within statement →
      statement ≠ extendingFunction → ¬MayBind (Analyzer.ofSpecs []).symbols "f" statement :=
    fun statement within differs => not_mayBind_callingModule rfl id within differs
  have listed : (Graph.ofStatements ([] ++ extendingFunction :: [callInPlace])).reachableStatements =
      [extendingFunction, callInPlace] := rfl
  have plain : ∀ id, callInPlace.Mentions id → ':' ∉ id.toList :=
    Node.plain_of_walk (by decide +kernel)
  have alone : callInPlace.StandsAlone callInPlace :=
    Node.standsAlone_of_nodup (by decide +kernel) callInPlace.self_mem_walk
  have isModule : (callingModule callInPlace).shape =
      .module ([] ++ extendingFunction :: [callInPlace]) := rfl
  rcases exists_module_updatesAsSpecified rfl isModule distinct uncached rfl only with
    ⟨result, final, run, known, updates⟩
  have facts := holds_of_run (fun outcome : AnalysisResult × Analyzer =>
    outcome.1.converged = true ∧ outcome.2.symbols.lookupFunction? "f" =
      some { spec := extendingSpec }) (by decide +kernel) run
  rcases known facts.1 callInPlace (by rw [listed]; simp) with ⟨found, isKnown⟩
  rcases updates List.mem_cons_self .refl isKnown with
    ⟨earlier, start, analysis, between, -, -, -, isInferred, asSpecified⟩
  have specEq : extendingSpec = analysis.spec :=
    congrArg ResolvedFunction.spec (Option.some.inj (facts.2.symm.trans isInferred))
  have updatesIff := fun passed => asSpecified rfl plain List.mem_cons_self rfl rfl alone
    (passesInPlace_argumentsInPlace passed)
  rw [← specEq] at updatesIff
  refine ⟨result, final, found, run, isKnown, (updatesIff "v").2 ⟨0, ?_, by decide⟩, fun updated => ?_⟩
  · exact ⟨0, bareArgument 2 "v" none, rfl, rfl, rfl⟩
  · rcases (updatesIff "w").1 updated with ⟨place, passes, isListed⟩
    have isFirst : place = 0 := by simpa [extendingSpec] using isListed
    subst isFirst
    rcases (passesInPlace_argumentsInPlace "w").passes_iff.1 passes with ⟨argument, ⟨⟩, isBare⟩
    exact absurd isBare (by decide)

def argumentsOutOfPlace : List (Argument Node) :=
  [bareArgument 4 "v" (some "b"), bareArgument 9 "w" (some "a")]

/-- A call `f(b=v, a=w)`. -/
def callOutOfPlace : Node :=
  onLine 3 0 11 (.call (onLine 3 0 1 (.name "f")) argumentsOutOfPlace)

def argumentsHidden : List (Argument Node) :=
  [bareArgument 14 "v" none, bareArgument 17 "w" none]

/-- A call `f(v, w)` in a function. -/
def callHidden : Node :=
  onLine 3 12 19 (.call (onLine 3 12 13 (.name "f")) argumentsHidden)

/-- A statement `g = lambda: f(v, w)`. -/
def hidingStatement : Node :=
  onLine 3 0 19 (.assign none [onLine 3 0 1 (.name "g")] [onLine 3 4 19 (.lambda [] callHidden)])

/-- The analysis of a module of the function and a statement updates something at a call in the
statement otherwise than specified. -/
def MisupdatesIn (calling call : Node) (args : List (Argument Node)) (passed : String) : Prop :=
  (callingModule calling).locations.Nodup ∧
    (∀ statement, (callingModule calling).Within statement → statement ≠ extendingFunction →
      ¬MayBind (Analyzer.ofSpecs []).symbols "f" statement) ∧
    ∃ result final found,
      (Analysis.module (callingModule calling)).run (.ofSpecs []) = .ok (result, final) ∧
      result.converged = true ∧ final.cached? calling = some found ∧
      final.symbols.lookupFunction? "f" = some { spec := extendingSpec } ∧
      (∃ place, Passes twoParams args passed place) ∧
      ¬UpdatesAsSpecified extendingSpec twoParams found call args passed

/-- An analysis finds some updates in a statement, after what is expected of the function. -/
abbrev Finds (calling : Node) (names : List (String × Location))
    (outcome : AnalysisResult × Analyzer) : Prop :=
  outcome.1.converged = true ∧
    outcome.2.symbols.lookupFunction? "f" = some { spec := extendingSpec } ∧
    (outcome.2.cached? calling).map (fun found =>
      found.updates.toList.map fun reference => (reference.name, reference.location)) = some names

theorem misupdatesIn_of_finds {calling call : Node} {args : List (Argument Node)} {passed : String}
    {names : List (String × Location)} (leaf : calling.parts = [])
    (spared : ∀ {symbols}, ¬MayBind symbols "f" calling)
    (distinct : (callingModule calling).locations.Nodup)
    (finds : ∀ outcome,
      (Analysis.module (callingModule calling)).run (.ofSpecs []) = .ok outcome →
        Finds calling names outcome)
    {place : Nat} (passes : Passes twoParams args passed place)
    (differs : ¬((passed, call.location) ∈ names ↔
      ∃ place, Passes twoParams args passed place ∧
        ParamRef.position (place + 1) ∈ extendingSpec.updates)) :
    MisupdatesIn calling call args passed := by
  refine ⟨distinct, fun _ => not_mayBind_callingModule leaf spared, ?_⟩
  have isRoot : (callingModule calling).IsRoot := .inl ⟨_, rfl⟩
  rcases exists_run_module isRoot (.ofSpecs []) with ⟨result, final, run⟩
  rcases finds _ run with ⟨converged, isLookup, updated⟩
  rcases Option.map_eq_some_iff.1 updated with ⟨found, isKnown, updated⟩
  refine ⟨result, final, found, run, converged, isKnown, isLookup, ⟨place, passes⟩, ?_⟩
  intro asSpecified
  rw [UpdatesAsSpecified] at asSpecified
  apply differs
  rw [← asSpecified, ← updated, List.mem_map]
  simp only [Prod.mk.injEq]

/-- What is passed by keyword counts where it stands, not where its parameter does, and calls in a
function that is an expression update nothing. -/
theorem misupdates_outOfPlace_and_hidden :
    MisupdatesIn callOutOfPlace callOutOfPlace argumentsOutOfPlace "v" ∧
      callHidden ∈ hidingStatement.walk ∧
      MisupdatesIn hidingStatement callHidden argumentsHidden "v" := by
  refine ⟨?_, ?_, ?_⟩
  · have passes : Passes twoParams argumentsOutOfPlace "v" 1 :=
      ⟨0, bareArgument 4 "v" (some "b"), rfl, rfl, rfl⟩
    have finds : ∀ outcome,
        (Analysis.module (callingModule callOutOfPlace)).run (.ofSpecs []) = .ok outcome →
          Finds callOutOfPlace [("v", callOutOfPlace.location)] outcome :=
      fun _ => holds_of_run (Finds _ _) (by decide +kernel)
    refine misupdatesIn_of_finds rfl id (by decide +kernel) finds passes ?_
    intro agree
    rcases agree.1 List.mem_cons_self with ⟨place, ⟨_ | _ | index, argument, ⟨⟩, isBare, ⟨⟩⟩, isListed⟩
    · exact absurd isListed (by decide)
    · exact absurd isBare (by decide)
  · have isLambda : onLine 3 4 19 (.lambda [] callHidden) ∈ hidingStatement.children := by
      simp [hidingStatement, onLine, Node.children, Shape.children, Shape.fields, Field.subtrees]
    have isBody : callHidden ∈ (onLine 3 4 19 (.lambda [] callHidden)).children :=
      List.mem_singleton_self _
    exact Node.walk_subset_of_mem_children isLambda
      (Node.walk_subset_of_mem_children isBody callHidden.self_mem_walk)
  · have passes : Passes twoParams argumentsHidden "v" 0 :=
      ⟨0, bareArgument 14 "v" none, rfl, rfl, rfl⟩
    have finds : ∀ outcome,
        (Analysis.module (callingModule hidingStatement)).run (.ofSpecs []) = .ok outcome →
          Finds hidingStatement [] outcome :=
      fun _ => holds_of_run (Finds _ _) (by decide +kernel)
    refine misupdatesIn_of_finds rfl id (by decide +kernel) finds passes ?_
    intro agree
    exact absurd (agree.2 ⟨0, passes, by decide⟩) List.not_mem_nil

end Analysis

end FlowAnalysis
