import FlowAnalysis.Proofs.Analysis.Aliasing
import FlowAnalysis.Proofs.Analysis.NamedScopes
import FlowAnalysis.Proofs.Analysis.Placeholder

/-!
# Recursive functions

What a function mutates is inferred from one analysis of its body, in which calls of the function
itself are taken to mutate nothing, and what is inferred is not put into the body again. So the
parameters that count as mutated are those whose value reaches an update that is made otherwise than
by a recursive call.
-/

namespace FlowAnalysis

theorem AnalysisResult.exists_parameter_of_mutates {result : AnalysisResult} {param : Node}
    (mutates : result.mutatesParameter param = true) :
    ∃ own typeHint default star starstar,
      param.shape = .parameter own typeHint default star starstar := by
  rw [mutatesParameter] at mutates
  split at mutates
  · next isParameter => exact ⟨_, _, _, _, _, isParameter⟩
  · cases mutates

/-- A node is a call of a bare name. -/
def Node.CallsName (call : Node) (name : String) : Prop :=
  ∃ func args, call.shape = .call func args ∧ func.shape = .name name

namespace Analysis

/-- A reference of a statement is not found at a call of a name in it. -/
def ApartFromCalls (name : String) (statement : Node) (reference : Reference) : Prop :=
  ∀ call ∈ statement.walkScope, call.CallsName name → call.StandsAlone statement →
    reference.location ≠ call.location

/-- The value of a parameter, under its own name or handed on from alias to alias, reaches an update
that some statement makes otherwise than by calling a name. -/
def UpdatedApartFromCalls (name : String) (known : Node → DefUse) (graph : Graph)
    (result : AnalysisResult) (param : Node) : Prop :=
  ∃ own typeHint default star starstar,
    param.shape = .parameter own typeHint default star starstar ∧
    ∃ carrier, Relation.ReflTransGen (Search.Steps result.carriers) (param.key, own) carrier ∧
      ∃ statement ∈ graph.reachableStatements, ∃ target flow,
        (target, flow) ∈ result.carrying carrier ∧ target ∈ (known statement).updates.toList ∧
        ApartFromCalls name statement target

section

variable {definition : Node} {name : String} {params body decorators : List Node}
  {analyzer after : Analyzer}
  (isDefinition : definition.shape = .definition name params body decorators)
  (spared : ∀ inner, InBody body inner → ¬MayBind analyzer.symbols name inner)
  (distinct : definition.innerPlaces.Nodup)
  (uncached : ∀ location ∈ definition.innerPlaces, analyzer.cache.get? location.key = none)

include isDefinition

theorem InBody.transGen_isPart {inner : Node} (inBody : InBody body inner) :
    Relation.TransGen Node.IsPart definition inner := by
  rcases inBody.exists_within with ⟨node, isMember, within⟩
  refine .head' ?_ within
  rwa [Node.IsPart, Node.parts, isDefinition]

include spared distinct uncached

/-- While a function is analyzed, nothing is updated at a call of the function itself. -/
theorem apartFromCalls_of_changes (changes : Changes (InBody body) (entering analyzer name) after)
    (holds : after.Holds (BelongsIn definition)) {statement : Node}
    (beneath : Relation.TransGen Node.IsPart definition statement)
    (plain : ∀ id, statement.Mentions id → ':' ∉ id.toList) {found : DefUse}
    (isKnown : after.cached? statement = some found) {reference : Reference}
    (isUpdate : reference ∈ found.updates.toList) : ApartFromCalls name statement reference := by
  intro call inScope callsName alone sameLocation
  rcases callsName with ⟨func, args, isCall, isName⟩
  have belongs := holds _ _ isKnown statement beneath rfl
  rcases changes.exists_composes isKnown with
    wasKnown | ⟨inner, between, inBody, sameKey, changes, composes⟩
  · cases (uncached _ (Node.location_mem_innerPlaces beneath)).symm.trans wasKnown
  · rcases Node.eq_of_key_eq_of_beneath distinct (inBody.transGen_isPart isDefinition) beneath
      sameKey with rfl
    have isPlaceholder : between.symbols.lookupFunction? name = some (placeholder name) := by
      rw [SymbolTable.lookupFunction?, function_eq_placeholder spared changes]
    rcases composes.exists_update_iff (belongs.opensNamedScope_eq_false isUpdate) plain inScope isCall
      alone with ⟨running, updates_iff⟩
    have isMutated := (updates_iff reference.name).1 ⟨reference, isUpdate, rfl, sameLocation⟩
    rw [mem_mutatedVariables_iff isName isPlaceholder] at isMutated
    rcases isMutated with ⟨index, -, -, -, isListed⟩
    exact absurd isListed List.not_mem_nil

end

/-! ### Edges that carry an update -/

/-- What an edge of a run leads to is a reference of a statement. -/
theorem exists_statement_of_carrying {known : Node → DefUse} {graph : Graph} {initial : RefSet}
    {visits : List BlockId} {progress : Progress} (wellFormed : graph.WellFormed)
    (run : Run known graph (.start graph initial) visits progress) {controls : List (Node × Node)}
    {carrier : String × String} {target : Reference} {flow : Dataflow}
    (isCarrying : (target, flow) ∈ (progress.result controls).carrying carrier) :
    ∃ statement ∈ graph.reachableStatements, ∃ level,
      target ∈ ((known statement).level level).toList := by
  rcases AnalysisResult.mem_carrying.1 isCarrying with ⟨isFlow, targetEq, -⟩
  rcases KeyedSet.mem_extend isFlow with isDrawn | isControl
  · have kept : Kept known graph initial fun _ => True := ⟨trivial, trivial, fun _ _ => trivial,
      fun _ _ => trivial⟩
    rcases kept.recorded wellFormed run flow isDrawn with
      ⟨statement, isReachable, running, -, isFlow⟩
    rcases DefUse.exists_pair_of_mem_flowsFrom isFlow with ⟨level, source, _, isPair, rfl, -⟩
    rcases targetEq with ⟨⟩
    exact ⟨statement, isReachable, level, (DefUse.mem_pairsAt.1 isPair).1⟩
  · rcases List.mem_map.1 isControl with ⟨_, -, rfl⟩
    cases targetEq

/-- If nothing is updated at calls of a name, a parameter counts as mutated if and only if its value
reaches an update that is made apart from these calls. -/
theorem mutatesParameter_iff_apart {known : Node → DefUse} {graph : Graph} {initial : RefSet}
    {visits : List BlockId} {progress : Progress} (wellFormed : graph.WellFormed)
    (run : Run known graph (.start graph initial) visits progress)
    (owned : ∀ statement ∈ graph.reachableStatements, (known statement).OwnedAt statement.key)
    {name : String} (apart : ∀ statement ∈ graph.reachableStatements,
      ∀ reference ∈ (known statement).updates.toList, ApartFromCalls name statement reference)
    {controls : List (Node × Node)} {param : Node} :
    (progress.result controls).mutatesParameter param = true ↔
      UpdatedApartFromCalls name known graph (progress.result controls) param := by
  constructor
  · intro mutates
    rcases AnalysisResult.exists_parameter_of_mutates mutates with
      ⟨own, typeHint, default, star, starstar, isParameter⟩
    rcases (AnalysisResult.mutatesParameter_iff isParameter).1 mutates with
      ⟨carrier, reaches, target, flow, isCarrying, isUpdate⟩
    rcases exists_statement_of_carrying wellFormed run isCarrying with
      ⟨statement, isReachable, level, isTarget⟩
    have atLevel := (owned statement isReachable level target isTarget).1
    rw [isUpdate] at atLevel
    subst atLevel
    exact ⟨own, typeHint, default, star, starstar, isParameter, carrier, reaches, statement,
      isReachable, target, flow, isCarrying, isTarget, apart statement isReachable target isTarget⟩
  · rintro ⟨own, typeHint, default, star, starstar, isParameter, carrier, reaches, statement,
      isReachable, target, flow, isCarrying, isTarget, -⟩
    have isUpdate := (owned statement isReachable .update target isTarget).1
    exact (AnalysisResult.mutatesParameter_iff isParameter).2
      ⟨carrier, reaches, target, flow, isCarrying, isUpdate⟩

section

variable {definition : Node} {name : String} {params body decorators : List Node}
  {analyzer : Analyzer}
  (isDefinition : definition.shape = .definition name params body decorators)
  (infers : analyzer.inferLocalFunctions = true)
  (spared : ∀ inner, InBody body inner → ¬MayBind analyzer.symbols name inner)
  (distinct : definition.locations.Nodup)
  (uncached : ∀ location ∈ definition.locations, analyzer.cache.get? location.key = none)

include isDefinition infers spared distinct uncached

/-- The analysis of a function succeeds, and if it converges, calls of the function itself in its
body update nothing: a parameter counts as mutated if and only if its value reaches an update that
is made otherwise. -/
theorem exists_function_updates_iff_apart :
    ∃ analysis after, (Analysis.function definition false).run analyzer = .ok (analysis, after) ∧
      (analysis.result.converged = true →
        (∀ statement ∈ (Graph.ofStatements body).reachableStatements,
          after.cached? statement = some (after.known statement)) ∧
        ((∀ statement ∈ (Graph.ofStatements body).reachableStatements,
            ∀ id, statement.Mentions id → ':' ∉ id.toList) →
          (∀ statement ∈ (Graph.ofStatements body).reachableStatements,
            ∀ reference ∈ (after.known statement).updates.toList,
              ApartFromCalls name statement reference) ∧
          ∀ position, .position position ∈ analysis.spec.updates ↔
            ∃ index param, params[index]? = some param ∧ position = index + 1 ∧
              UpdatedApartFromCalls name after.known (.ofStatements body) analysis.result param)) := by
  rcases exists_function_describes isDefinition distinct uncached false with
    ⟨analysis, after, run, updatesEq, converges⟩
  refine ⟨analysis, after, run, fun converged => ?_⟩
  rcases converges converged with ⟨described, visits, progress, controls, isRun, resultEq⟩
  refine ⟨fun statement isReachable => (described statement isReachable).1, fun plain => ?_⟩
  have partsEq : definition.parts = body := by
    rw [Node.parts, isDefinition]
  have distinctInside := Node.innerPlaces_nodup distinct
  have uncachedInside : ∀ location ∈ definition.innerPlaces,
      analyzer.cache.get? location.key = none :=
    fun location isPlace => uncached location (definition.innerPlaces_subset isPlace)
  have holds : after.Holds (BelongsIn definition) := by
    have ran := (run_graph_of_run_function isDefinition infers run).1
    rw [← partsEq] at ran
    refine holds_of_run_graph distinctInside ?_ ran
    exact uncachedInside
  have apart : ∀ statement ∈ (Graph.ofStatements body).reachableStatements,
      ∀ reference ∈ (after.known statement).updates.toList,
        ApartFromCalls name statement reference := by
    intro statement isReachable reference isUpdate
    exact apartFromCalls_of_changes isDefinition spared distinctInside uncachedInside
      (changes_of_run_function isDefinition infers run) holds
      (Scope.of_mem_reachableStatements isDefinition isReachable).transGen_isPart
      (plain statement isReachable) (described statement isReachable).1 isUpdate
  refine ⟨apart, fun position => ?_⟩
  have mutates_iff (param : Node) : analysis.result.mutatesParameter param = true ↔
      UpdatedApartFromCalls name after.known (.ofStatements body) analysis.result param := by
    rw [resultEq]
    exact mutatesParameter_iff_apart (Graph.ofCommands_laidOut _).wellFormed isRun
      (fun statement isReachable => (described statement isReachable).2.ownedAt) apart
  have isListed : .position position ∈ analysis.spec.updates ↔
      ∃ index param, params[index]? = some param ∧
        analysis.result.mutatesParameter param = true ∧ position = 1 + index := by
    rw [updatesEq, ← AnalysisResult.mem_mutatedPositions]
    simp
  rw [isListed]
  constructor
  · rintro ⟨index, param, isParam, mutates, rfl⟩
    exact ⟨index, param, isParam, Nat.add_comm .., (mutates_iff param).1 mutates⟩
  · rintro ⟨index, param, isParam, rfl, isUpdated⟩
    exact ⟨index, param, isParam, (mutates_iff param).2 isUpdated, Nat.add_comm ..⟩

end

def swappingArguments : List (Argument Node) :=
  [bareArgument 4 "b" none, bareArgument 7 "a" none]

/-- A call `f(b, a)`. -/
def swappingCall : Node :=
  onLine 3 2 9 (.call (onLine 3 2 3 (.name "f")) swappingArguments)

/-- Statements `a += c` and `f(b, a)`. -/
def swappingStatements : List Node :=
  [onLine 2 2 8 (.assign (some "+") [onLine 2 2 3 (.name "a")] [onLine 2 7 8 (.name "c")]),
    swappingCall]

/-- A function that extends its first parameter and calls itself with the parameters swapped,
`def f(a, b): a += c; f(b, a)`. -/
def swappingFunction : Node :=
  ⟨.definition "f" twoParams swappingStatements [], ⟨1, 0, 3, 9, none⟩⟩

theorem spared_swappingStatements {symbols : SymbolTable} {inner : Node}
    (inBody : InBody swappingStatements inner) : ¬MayBind symbols "f" inner := by
  rcases inBody.exists_within with ⟨node, isMember, within⟩
  rcases List.mem_cons.1 (isMember : node ∈ [_, _]) with rfl | isCall
  · rw [Node.Within.eq_of_parts_eq_nil within rfl]
    exact id
  · rcases List.mem_singleton.1 isCall with rfl
    rw [Node.Within.eq_of_parts_eq_nil within rfl]
    exact id

/-- The parameter that counts as mutated is updated apart from the recursive call. -/
theorem updates_swappingFunction : ∃ analysis after,
    (Analysis.function swappingFunction false).run (.ofSpecs []) = .ok (analysis, after) ∧
      (∀ reference ∈ (after.known swappingCall).updates.toList,
        reference.location ≠ swappingCall.location) ∧
      ∃ param, twoParams[0]? = some param ∧ UpdatedApartFromCalls "f" after.known
        (.ofStatements swappingStatements) analysis.result param := by
  have distinct : swappingFunction.locations.Nodup := by decide +kernel
  have uncached : ∀ location ∈ swappingFunction.locations,
      (Analyzer.ofSpecs []).cache.get? location.key = none := fun _ _ => rfl
  rcases exists_function_updates_iff_apart rfl rfl (fun _ => spared_swappingStatements) distinct
    uncached with ⟨analysis, after, run, infers⟩
  have facts := holds_of_run (fun outcome : FunctionAnalysis × Analyzer =>
    outcome.1.result.converged = true ∧ .position 1 ∈ outcome.1.spec.updates) (by decide +kernel)
    run
  have onlyStatements : (Graph.ofStatements swappingStatements).reachableStatements =
      swappingStatements := rfl
  have allPlain : ∀ statement ∈ swappingStatements, ∀ inner ∈ statement.walk,
      (inner.nameId?.all fun id => !id.toList.contains ':') = true := by decide +kernel
  rcases (infers facts.1).2 (fun statement isReachable =>
    Node.plain_of_walk (allPlain statement (onlyStatements ▸ isReachable))) with ⟨apart, listed_iff⟩
  refine ⟨analysis, after, run, fun reference isUpdate => ?_, ?_⟩
  · have isReachable :
        swappingCall ∈ (Graph.ofStatements swappingStatements).reachableStatements := by
      rw [onlyStatements]
      simp [swappingStatements]
    exact apart swappingCall isReachable reference isUpdate swappingCall List.mem_cons_self
      ⟨_, _, rfl, rfl⟩ (Node.standsAlone_of_nodup (by decide +kernel) swappingCall.self_mem_walk)
  · rcases (listed_iff 1).1 facts.2 with ⟨index, param, isParam, positionEq, isUpdated⟩
    rcases (by omega : index = 0) with rfl
    exact ⟨param, isParam, isUpdated⟩

/-- A function mutates its first parameter and passes its second one for it, on a path on which
nothing rebinds that, and the second parameter does not count as mutated. -/
theorem overlooks_swappedParameter : ∃ analysis after,
    (Analysis.function swappingFunction false).run (.ofSpecs []) = .ok (analysis, after) ∧
      (Analyzer.ofSpecs []).inferLocalFunctions = true ∧ analysis.result.converged = true ∧
      swappingFunction.locations.Nodup ∧
      (∀ inner, InBody swappingStatements inner → ¬MayBind (Analyzer.ofSpecs []).symbols "f" inner) ∧
      .position 1 ∈ analysis.spec.updates ∧
      (∃ between, (Graph.ofStatements swappingStatements).Reaches between swappingCall ∧
        ∀ statement ∈ between, ¬(after.known statement).Refers .definition "b") ∧
      swappingCall.CallsName "f" ∧ Passes twoParams swappingArguments "b" 0 ∧
      (∃ param binding, twoParams[1]? = some param ∧ parameterDefinition? param = some binding ∧
        binding.name = "b") ∧
      .position 2 ∉ analysis.spec.updates := by
  rcases exists_run_function (rfl : swappingFunction.shape = .definition "f" _ _ _) false
    (.ofSpecs []) with ⟨analysis, after, run⟩
  have facts := holds_of_run (fun outcome : FunctionAnalysis × Analyzer =>
    outcome.1.result.converged = true ∧ outcome.1.spec.updates = [.position 1] ∧
      ∀ statement ∈ swappingStatements.take 1, ¬(outcome.2.known statement).Refers .definition "b")
    (by decide +kernel) run
  rcases facts with ⟨converged, onlyFirst, kept⟩
  have updatesEq : analysis.spec.updates = [.position 1] := onlyFirst
  refine ⟨analysis, after, run, rfl, converged, by decide +kernel,
    fun _ => spared_swappingStatements, ?_, ⟨_, ⟨[1], 1, [], .single 1, rfl⟩, kept⟩,
    ⟨_, _, rfl, rfl⟩, ⟨0, bareArgument 4 "b" none, rfl, rfl, rfl⟩, ⟨_, _, rfl, rfl, rfl⟩, ?_⟩
  · simp [updatesEq]
  · simp [updatesEq]

end Analysis

end FlowAnalysis
