import FlowAnalysis.Proofs.Analysis.Mutation
import FlowAnalysis.Proofs.Analysis.Recording
import FlowAnalysis.Proofs.Analysis.Scopes
import FlowAnalysis.Proofs.ControlFlow.Structured

/-!
# Mutations through aliases

A parameter is mutated if some statement mutates the value under the name of the parameter or under
an alias of it. The search for such a statement follows edges from binding to binding. Whatever
chain of bare assignments hands the value on, the edges along it are drawn, and the last one carries
the mutation.
-/

namespace FlowAnalysis

/-! ### The search for mutations -/

namespace AnalysisResult

variable {result : AnalysisResult} {carrier next : String × String} {target : Reference}
  {flow : Dataflow} {param : Node} {params : List Node} {name : String}

theorem mem_carrying :
    (target, flow) ∈ result.carrying carrier ↔
      flow ∈ result.dataflows.toList ∧ flow.targetRef = some target ∧
        ∃ source, flow.sourceRef = some source ∧ flow.source.key = carrier.1 ∧
          source.name = carrier.2 := by
  simp only [carrying, List.mem_filterMap]
  constructor
  · rintro ⟨flow', isFlow, found⟩
    split at found
    · next source target' sourceEq targetEq =>
        split at found
        · next same =>
            rcases found with ⟨⟩
            exact ⟨isFlow, targetEq, source, sourceEq, same⟩
        · cases found
    · cases found
  · rintro ⟨isFlow, targetEq, source, sourceEq, same⟩
    refine ⟨flow, isFlow, ?_⟩
    rw [sourceEq, targetEq]
    exact if_pos same

theorem mem_carrying_between {source : Reference}
    (isFlow : .between source target ∈ result.dataflows.toList) :
    (target, .between source target) ∈ result.carrying (source.owner.key, source.name) :=
  mem_carrying.2 ⟨isFlow, rfl, source, rfl, rfl, rfl⟩

theorem mem_carriers :
    next ∈ result.carriers carrier ↔
      ∃ target flow, (target, flow) ∈ result.carrying carrier ∧ flow.target.key = next.1 ∧
        aliasTarget? flow.target carrier.2 = some next.2 := by
  simp only [carriers, List.mem_filterMap, Option.map_eq_some_iff, Prod.exists]
  constructor
  · rintro ⟨target, flow, isCarrying, name, isAlias, rfl⟩
    exact ⟨target, flow, isCarrying, rfl, isAlias⟩
  · rintro ⟨target, flow, isCarrying, sameKey, isAlias⟩
    exact ⟨target, flow, isCarrying, _, isAlias, Prod.ext sameKey rfl⟩

/-- The statement and the name that an edge makes a carrier. -/
def madeCarrier? (flow : Dataflow) : Option (String × String) :=
  flow.sourceRef.bind fun source =>
    (aliasTarget? flow.target source.name).map fun name => (flow.target.key, name)

/-- The search finds a mutation if and only if there is one at the end of a chain of carriers. -/
theorem mutatesParameter_iff {typeHint default : Option Node} {star starstar : Bool}
    (isParameter : param.shape = .parameter name typeHint default star starstar) :
    result.mutatesParameter param = true ↔
      ∃ carrier, Relation.ReflTransGen (Search.Steps result.carriers) (param.key, name) carrier ∧
        ∃ target flow, (target, flow) ∈ result.carrying carrier ∧ target.level = .update := by
  have stays : ∀ source ∈ (param.key, name) :: result.dataflows.toList.filterMap madeCarrier?,
      ∀ target ∈ result.carriers source,
        target ∈ (param.key, name) :: result.dataflows.toList.filterMap madeCarrier? := by
    intro source _ target isCarrier
    rcases mem_carriers.1 isCarrier with ⟨_, flow, isCarrying, sameKey, isAlias⟩
    rcases mem_carrying.1 isCarrying with ⟨isFlow, -, reference, sourceEq, -, sameName⟩
    refine List.mem_cons_of_mem _ (List.mem_filterMap.2 ⟨flow, isFlow, ?_⟩)
    rw [madeCarrier?, sourceEq, Option.bind_some, sameName, isAlias, Option.map_some, sameKey]
  have enough : ((param.key, name) :: result.dataflows.toList.filterMap madeCarrier?).length ≤
      result.dataflows.size + 1 := by
    have few := List.length_filterMap_le madeCarrier? result.dataflows.toList
    simp only [KeyedSet.toList, List.length_map] at few
    exact Nat.succ_le_succ few
  have starts : [(param.key, name)] ⊆
      (param.key, name) :: result.dataflows.toList.filterMap madeCarrier? := by simp
  have reached : ∀ carrier, carrier ∈ Search.reached result.carriers (result.dataflows.size + 1)
      [(param.key, name)] ↔
        Relation.ReflTransGen (Search.Steps result.carriers) (param.key, name) carrier := by
    intro carrier
    rw [Search.mem_reached_iff stays enough starts]
    simp
  rw [mutatesParameter, isParameter]
  simp only [List.any_eq_true, beq_iff_eq, reached]
  constructor
  · rintro ⟨carrier, reaches, ⟨target, flow⟩, isCarrying, isUpdate⟩
    exact ⟨carrier, reaches, target, flow, isCarrying, isUpdate⟩
  · rintro ⟨carrier, reaches, target, flow, isCarrying, isUpdate⟩
    exact ⟨carrier, reaches, (target, flow), isCarrying, isUpdate⟩

theorem mem_mutatedPositions {start position : Nat} :
    position ∈ result.mutatedPositions start params ↔
      ∃ index param, params[index]? = some param ∧ result.mutatesParameter param = true ∧
        position = start + index := by
  induction params generalizing start with
  | nil => simp [mutatedPositions]
  | cons first rest ih =>
      have isFirst : position ∈ (if result.mutatesParameter first then [start] else []) ↔
          result.mutatesParameter first = true ∧ position = start := by
        split <;> simp_all
      rw [mutatedPositions, List.mem_append, isFirst, ih]
      constructor
      · rintro (⟨isMutated, rfl⟩ | ⟨index, param, isParam, isMutated, rfl⟩)
        · exact ⟨0, first, rfl, isMutated, rfl⟩
        · exact ⟨index + 1, param, isParam, isMutated, by omega⟩
      · rintro ⟨index, param, isParam, isMutated, rfl⟩
        cases index with
        | zero =>
            rcases Option.some.inj isParam with rfl
            exact .inl ⟨isMutated, rfl⟩
        | succ index => exact .inr ⟨index, param, isParam, isMutated, by omega⟩

end AnalysisResult

/-! ### Aliases -/

/-- A statement makes a name stand for what another one stands for, and does nothing else. -/
def Node.Aliases (statement : Node) (name synonym : String) : Prop :=
  ∃ target value,
    statement.shape = .assign none [⟨.name synonym, target⟩] [⟨.name name, value⟩]

theorem Node.Aliases.aliasTarget?_eq {statement : Node} {name synonym : String}
    (aliases : statement.Aliases name synonym) :
    AnalysisResult.aliasTarget? statement name = some synonym := by
  rcases aliases with ⟨target, value, isAssigned⟩
  simp [AnalysisResult.aliasTarget?, isAssigned, Node.nameId?]

namespace Analysis

variable {known : Node → DefUse} {graph : Graph} {initial : RefSet} {progress : Progress}
  {name synonym : String} {statement param : Node} {defUse : DefUse}

theorem references_of_aliases {target value : Location} (symbols symbols' : SymbolTable)
    (running : RefSet) (isAssigned : statement.shape =
      .assign none [⟨.name synonym, target⟩] [⟨.name name, value⟩]) :
    assignmentReferences symbols statement none [⟨.name synonym, target⟩] [⟨.name name, value⟩] ++
        callUpdates symbols' running statement ++ declaredDefinitions statement =
      [.atNode .definition synonym ⟨.name synonym, target⟩ statement,
        .atNode .use name ⟨.name name, value⟩ statement] := by
  rcases statement with ⟨_, location⟩
  subst isAssigned
  simp [assignmentReferences, assignedReferences, targetReferences, inferredTypes, nameUses,
    callUpdates, declaredDefinitions, Node.walk, Node.walkScope, Node.preorder, Node.scopePreorder,
    Node.children, Shape.children, Shape.fields, Field.subtrees, Node.opensScope, Node.nameId?,
    Node.innerBindings, Reference.atNode]

/-- What is found out about an alias is that it binds one name and reads the other one. -/
theorem Describes.exists_of_aliases (describes : Describes statement defUse)
    (aliases : statement.Aliases name synonym) :
    ∃ binding ∈ (defUse.level .definition).toList, ∃ reading ∈ (defUse.level .use).toList,
      binding.level = .definition ∧ binding.name = synonym ∧
      reading.level = .use ∧ reading.name = name ∧
      ∀ level, ∀ reference ∈ (defUse.level level).toList,
        reference = binding ∨ reference = reading := by
  rcases aliases with ⟨target, value, isAssigned⟩
  rcases describes.assigned _ _ _ isAssigned with ⟨symbols, symbols', running, rfl⟩
  rw [references_of_aliases symbols symbols' running isAssigned]
  refine ⟨_, List.mem_cons_self, _, List.mem_cons_self, rfl, rfl, rfl, rfl, ?_⟩
  intro level reference isMember
  simpa using (DefUse.mem_of_mem_ofReferences isMember).1

theorem Describes.owner_eq (describes : Describes statement defUse) {level : Level}
    {reference : Reference} (isMember : reference ∈ (defUse.level level).toList) :
    reference.owner = statement := by
  rcases describes.references with ⟨references, owned, rfl⟩
  exact owned reference (DefUse.mem_of_mem_ofReferences isMember).1

/-! ### Chains of aliases -/

/-- No other statement has a reference with the key of the given one. -/
def Unshared (known : Node → DefUse) (graph : Graph) (initial : RefSet) (reference : Reference) :
    Prop :=
  ∀ other, Occurs known graph initial other → other.key = reference.key →
    other.owner.key = reference.owner.key

/-- On some path a statement is met behind others that come after a source, or after the entry if
there is no source. -/
def Follows (graph : Graph) : Option Node → List Node → Node → Prop
  | none, between, target => graph.Reaches between target
  | some source, between, target => ∃ before, graph.Reaches (before ++ source :: between) target

theorem Follows.mem_reachableStatements {source? : Option Node} {between : List Node}
    (follows : Follows graph source? between statement) (wellFormed : graph.WellFormed) :
    statement ∈ graph.reachableStatements := by
  cases source? with
  | none => exact Graph.Reaches.mem_reachableStatements follows wellFormed
  | some source =>
      rcases follows with ⟨before, reaches⟩
      exact reaches.mem_reachableStatements wellFormed

/-- The names that stand for the value of a parameter, each with the assignment that makes it do so
or nothing for the parameter itself. A name is handed on as long as it is neither bound anew nor
mutated. Bindings on the way can be subject to a condition. -/
inductive Carries (known : Node → DefUse) (graph : Graph) (admits : Reference → Prop)
    (param : Node) : Option Node → String → Prop where
  | parameter {name : String} {typeHint default : Option Node} {star starstar : Bool}
      (isParameter : param.shape = .parameter name typeHint default star starstar)
      (admitted : admits (.atNode .definition name param param)) :
      Carries known graph admits param none name
  | synonym {source? : Option Node} {name synonym : String} {between : List Node} {statement : Node}
      (carries : Carries known graph admits param source? name)
      (aliases : statement.Aliases name synonym) (follows : Follows graph source? between statement)
      (kept : ∀ other ∈ between,
        ¬(known other).Refers .definition name ∧ ¬(known other).Refers .update name)
      (admitted : ∀ reference ∈ (known statement).definitions.toList, admits reference) :
      Carries known graph admits param (some statement) synonym

/-- Some statement mutates the value of a parameter under a name that stands for it. -/
def Mutates (known : Node → DefUse) (graph : Graph) (admits : Reference → Prop) (param : Node) :
    Prop :=
  ∃ source? name between statement, Carries known graph admits param source? name ∧
    Follows graph source? between statement ∧
    (∀ other ∈ between, ¬(known other).Refers .definition name) ∧
    (known statement).Refers .update name

/-- Parameters are bound on entry, and their keys tell them apart from each other and from
statements. -/
structure Seeded (graph : Graph) (initial : RefSet) : Prop where
  areDefinitions : ∀ reference ∈ initial.toList, reference.level = .definition
  keysPlain : ∀ reference ∈ initial.toList, '>' ∉ reference.owner.key.toList
  distinct : ∀ reference ∈ initial.toList, ∀ other ∈ initial.toList,
    reference.owner.key = other.owner.key → reference = other
  apart : ∀ reference ∈ initial.toList, ∀ statement ∈ graph.reachableStatements,
    reference.owner.key ≠ statement.key

/-- A run has ended, and keys tell statements and edges apart. -/
structure Traceable (known : Node → DefUse) (graph : Graph) (initial : RefSet)
    (progress : Progress) : Prop where
  wellFormed : graph.WellFormed
  covered : Covered known graph initial progress
  nonePending : progress.pending = []
  recorded : ∀ flow ∈ progress.dataflows.toList, Recorded known graph
    (fun running => Occurring known graph initial running ∧ Orderly running) flow
  seeded : Seeded graph initial
  described : ∀ statement ∈ graph.reachableStatements, Describes statement (known statement)
  plain : ∀ reference, Occurs known graph initial reference → reference.HasPlainName
  keysPlain : ∀ statement ∈ graph.reachableStatements, '>' ∉ statement.key.toList
  distinct : ∀ statement ∈ graph.reachableStatements, ∀ other ∈ graph.reachableStatements,
    statement.key = other.key → statement = other

/-- What makes a name stand for a value: a binding that is the only one of its owner. -/
structure Hands (known : Node → DefUse) (graph : Graph) (initial : RefSet) (source? : Option Node)
    (name : String) (binding : Reference) : Prop where
  occurs : Occurs known graph initial binding
  unshared : Unshared known graph initial binding
  isDefinition : binding.level = .definition
  named : binding.name = name
  only : ∀ other, Occurs known graph initial other → other.level ≠ .use →
    other.owner.key = binding.owner.key → other = binding
  inForce : ∀ {level between target}, level ≠ .definition → Follows graph source? between target →
    (∀ statement ∈ between, ¬(known statement).Rebinds level name) →
    ∃ earlier, graph.Reaches earlier target ∧ InForce known initial level earlier binding

namespace Traceable

variable (traceable : Traceable known graph initial progress)

include traceable

theorem owner_key_cases {reference : Reference} (occurs : Occurs known graph initial reference) :
    reference ∈ initial.toList ∨ ∃ statement ∈ graph.reachableStatements, ∃ level,
      reference ∈ ((known statement).level level).toList ∧ reference.level = level ∧
        reference.owner = statement := by
  rcases occurs with isInitial | ⟨statement, isReachable, level, isMember⟩
  · exact .inl isInitial
  · have describes := traceable.described statement isReachable
    exact .inr ⟨statement, isReachable, level, isMember,
      (describes.ownedAt level reference isMember).1, describes.owner_eq isMember⟩

theorem plainOwner {reference : Reference} (occurs : Occurs known graph initial reference) :
    '>' ∉ reference.owner.key.toList := by
  rcases traceable.owner_key_cases occurs with isInitial | ⟨_, isReachable, _, -, -, rfl⟩
  · exact traceable.seeded.keysPlain reference isInitial
  · exact traceable.keysPlain _ isReachable

/-- The binding of a parameter hands its value on. -/
theorem hands_initial {binding : Reference} (isInitial : binding ∈ initial.toList)
    (unshared : Unshared known graph initial binding) :
    Hands known graph initial none binding.name binding where
  occurs := .inl isInitial
  unshared := unshared
  isDefinition := traceable.seeded.areDefinitions binding isInitial
  named := rfl
  only := by
    intro other occurs _ sameOwner
    rcases traceable.owner_key_cases occurs with otherInitial | ⟨_, isReachable, _, -, -, rfl⟩
    · exact traceable.seeded.distinct other otherInitial binding isInitial sameOwner
    · exact absurd sameOwner.symm (traceable.seeded.apart binding isInitial _ isReachable)
  inForce := fun {_ between _} isSeen follows untouched =>
    ⟨between, follows, .initial isSeen isInitial untouched⟩

/-- The binding of an alias hands its value on. -/
theorem hands_alias (isReachable : statement ∈ graph.reachableStatements)
    (aliases : statement.Aliases name synonym)
    (unshared : ∀ reference ∈ (known statement).definitions.toList,
      Unshared known graph initial reference) :
    ∃ binding, binding.owner = statement ∧
      Hands known graph initial (some statement) synonym binding := by
  have describes := traceable.described statement isReachable
  rcases describes.exists_of_aliases aliases with
    ⟨binding, isBinding, reading, -, isDefinition, named, isUse, -, onlyThese⟩
  have isOwner := describes.owner_eq isBinding
  refine ⟨binding, isOwner, .inr ⟨statement, isReachable, .definition, isBinding⟩,
    unshared binding isBinding, isDefinition, named, ?_, ?_⟩
  · intro other occurs notUse sameOwner
    rw [isOwner] at sameOwner
    rcases traceable.owner_key_cases occurs with
      otherInitial | ⟨_, otherReachable, level, isMember, -, rfl⟩
    · exact absurd sameOwner (traceable.seeded.apart other otherInitial statement isReachable)
    · rw [traceable.distinct _ otherReachable statement isReachable sameOwner] at isMember
      rcases onlyThese level other isMember with rfl | rfl
      · rfl
      · exact absurd isUse notUse
  · rintro level between target isSeen ⟨before, reaches⟩ untouched
    have isBound : Level.definition ∈ level.generatedBy := by
      cases level <;> simp [Level.generatedBy] at isSeen ⊢
    exact ⟨_, reaches, .bound ⟨.definition, isBound, isBinding⟩ (named.symm ▸ untouched)⟩

/-- What is handed on to a statement that refers to it is drawn, and the edge carries the mutation
if the statement makes one. -/
theorem exists_flow {source? : Option Node} {binding : Reference} {between : List Node}
    {level : Level} (hands : Hands known graph initial source? name binding)
    (follows : Follows graph source? between statement) (isSeen : level ≠ .definition)
    (untouched : ∀ other ∈ between, ¬(known other).Rebinds level name)
    (refers : (known statement).Refers level name) :
    ∃ source target, .between source target ∈ progress.dataflows.toList ∧ source.name = name ∧
      source.owner.key = binding.owner.key ∧ target.owner = statement ∧
      ((known statement).Refers .update name → target.level = .update) := by
  rcases hands.inForce isSeen follows untouched with ⟨earlier, reaches, inForce⟩
  have isReachable := reaches.mem_reachableStatements traceable.wellFormed
  have describes := traceable.described statement isReachable
  rcases refers with ⟨needed, isNeeded, neededName⟩
  rcases reaches with ⟨blocks, last, later, path, traceEq⟩
  rcases traceable.covered.draws traceable.plain traceable.wellFormed traceable.nonePending path
      traceEq inForce isNeeded (hands.named.trans neededName.symm) with
    ⟨found, sameKey, occurs, draws⟩
  have foundOwner := hands.unshared found occurs sameKey
  have neededOwner := describes.owner_eq isNeeded
  have neededPlain := traceable.keysPlain statement isReachable
  rw [← neededOwner] at neededPlain
  rcases Progress.exists_flow_of_draws draws (traceable.plainOwner occurs) neededPlain with
    ⟨flow, isFlow, sourceKey, targetKey⟩
  -- The edge that was kept need not be the one that was drawn here.
  rcases traceable.recorded flow isFlow with
    ⟨recorder, recorderReachable, running, ⟨occurring, orderly⟩, isDrawn⟩
  rcases DefUse.exists_pair_of_mem_flowsFrom isDrawn with
    ⟨keptLevel, source, target, isPair, rfl, -⟩
  rcases DefUse.mem_pairsAt.1 isPair with ⟨isTarget, isSource, -⟩
  have targetOwner := (traceable.described recorder recorderReachable).owner_eq isTarget
  have sameStatement : recorder = statement := by
    apply traceable.distinct recorder recorderReachable statement isReachable
    rw [← targetOwner, ← neededOwner]
    exact targetKey
  subst sameStatement
  have sourceOccurs := occurring keptLevel source isSource
  have isBinding : source = binding := hands.only source sourceOccurs
    (orderly.bindings keptLevel source isSource) (sourceKey.trans foundOwner)
  subst isBinding
  refine ⟨source, target, isFlow, hands.named, rfl, targetOwner, fun isMutated => ?_⟩
  rw [← hands.named] at isMutated
  refine orderly.level_eq_update describes.ownedAt isDrawn hands.isDefinition isMutated ?_
  intro other isOther otherKey
  have otherOccurs := occurring .update other isOther
  exact ⟨(Reference.name_level_eq_of_key_eq (traceable.plain other otherOccurs)
    (traceable.plain source sourceOccurs) otherKey).1, hands.unshared other otherOccurs otherKey⟩

section

variable {source? : Option Node} (controls : List (Node × Node))
  (isSeeded : ∀ binding ∈ parameterDefinition? param, binding ∈ initial.toList)

include isSeeded

theorem exists_hands
    (carries : Carries known graph (Unshared known graph initial) param source? name) :
    ∃ binding, binding.owner.key = (source?.getD param).key ∧
      Hands known graph initial source? name binding := by
  cases carries with
  | parameter isParameter admitted =>
      refine ⟨_, rfl, traceable.hands_initial (isSeeded _ ?_) admitted⟩
      rw [parameterDefinition?, isParameter]
      rfl
  | @synonym _ _ _ _ statement _ aliases follows _ admitted =>
      rcases traceable.hands_alias (follows.mem_reachableStatements traceable.wellFormed) aliases
          admitted with ⟨binding, isOwner, hands⟩
      exact ⟨binding, congrArg Node.key isOwner, hands⟩

/-- An edge carries the value of a parameter to a statement that refers to a name for it. -/
theorem exists_carrying {between : List Node} {level : Level}
    (carries : Carries known graph (Unshared known graph initial) param source? name)
    (follows : Follows graph source? between statement) (isSeen : level ≠ .definition)
    (untouched : ∀ other ∈ between, ¬(known other).Rebinds level name)
    (refers : (known statement).Refers level name) :
    ∃ target flow,
      (target, flow) ∈ (progress.result controls).carrying ((source?.getD param).key, name) ∧
      flow.target = statement ∧
      ((known statement).Refers .update name → target.level = .update) := by
  rcases traceable.exists_hands isSeeded carries with ⟨binding, bindingKey, hands⟩
  rcases traceable.exists_flow hands follows isSeen untouched refers with
    ⟨source, target, isFlow, named, sourceKey, isOwner, isUpdate⟩
  refine ⟨target, .between source target, ?_, isOwner, isUpdate⟩
  rw [← bindingKey, ← sourceKey, ← named]
  exact AnalysisResult.mem_carrying_between (Progress.mem_result isFlow)

/-- The search comes to every name that stands for the value of a parameter. -/
theorem exists_reflTransGen_carriers
    (carries : Carries known graph (Unshared known graph initial) param source? name) :
    ∃ own typeHint default star starstar,
      param.shape = .parameter own typeHint default star starstar ∧
      Relation.ReflTransGen (Search.Steps (progress.result controls).carriers) (param.key, own)
        ((source?.getD param).key, name) := by
  induction carries with
  | parameter isParameter _ => exact ⟨_, _, _, _, _, isParameter, .refl⟩
  | @synonym source? name synonym between statement carries aliases follows kept _ ih =>
      rcases ih with ⟨own, typeHint, default, star, starstar, isParameter, reaches⟩
      refine ⟨own, typeHint, default, star, starstar, isParameter, reaches.tail ?_⟩
      have isReachable := follows.mem_reachableStatements traceable.wellFormed
      have isRead : (known statement).Refers .use name := by
        rcases (traceable.described statement isReachable).exists_of_aliases aliases with
          ⟨-, -, reading, isReading, -, -, -, named, -⟩
        exact ⟨reading, isReading, named⟩
      have untouched : ∀ other ∈ between, ¬(known other).Rebinds .use name := by
        intro other isBetween rebinds
        exact (DefUse.rebinds_use_iff.1 rebinds).elim (kept other isBetween).2
          (kept other isBetween).1
      rcases traceable.exists_carrying controls isSeeded carries follows (by simp) untouched isRead
        with ⟨target, flow, isCarrying, isTarget, -⟩
      apply AnalysisResult.mem_carriers.2
      exact ⟨target, flow, isCarrying, congrArg Node.key isTarget,
        isTarget ▸ aliases.aliasTarget?_eq⟩

/-- The search finds the mutation of a parameter. -/
theorem mutatesParameter
    (mutates : Mutates known graph (Unshared known graph initial) param) :
    (progress.result controls).mutatesParameter param = true := by
  rcases mutates with ⟨source?, name, between, statement, carries, follows, kept, isMutated⟩
  rcases traceable.exists_reflTransGen_carriers controls isSeeded carries with
    ⟨own, typeHint, default, star, starstar, isParameter, reaches⟩
  have untouched : ∀ other ∈ between, ¬(known other).Rebinds .update name :=
    fun other isBetween rebinds => kept other isBetween (DefUse.rebinds_update_iff.1 rebinds)
  rcases traceable.exists_carrying controls isSeeded carries follows (by simp) untouched isMutated
    with ⟨target, flow, isCarrying, -, isUpdate⟩
  apply (AnalysisResult.mutatesParameter_iff isParameter).2
  exact ⟨_, reaches, target, flow, isCarrying, isUpdate isMutated⟩

end

end Traceable

/-! ### Parameters -/

section

variable {params : List Node} {reference : Reference}

theorem owner_of_parameterDefinition? (isBinding : parameterDefinition? param = some reference) :
    reference.owner = param ∧ reference.level = .definition ∧
      reference.location = param.location := by
  rw [parameterDefinition?] at isBinding
  split at isBinding
  · rcases Option.some.inj isBinding with rfl
    exact ⟨rfl, rfl, rfl⟩
  · cases isBinding

theorem exists_param_of_mem_onEntry (isMember : reference ∈ (onEntry params).toList) :
    ∃ param ∈ params, parameterDefinition? param = some reference :=
  List.mem_filterMap.1 (KeyedSet.mem_ofList isMember)

variable (distinct : (params.map Node.key).Nodup)

include distinct

theorem eq_of_mem_onEntry {other : Reference} (isMember : reference ∈ (onEntry params).toList)
    (isParam : param ∈ params) (isBinding : parameterDefinition? param = some other)
    (sameKey : reference.owner.key = param.key) : reference = other := by
  rcases exists_param_of_mem_onEntry isMember with ⟨param', isParam', isBinding'⟩
  rw [(owner_of_parameterDefinition? isBinding').1] at sameKey
  rcases List.inj_on_of_nodup_map distinct isParam' isParam sameKey with rfl
  exact Option.some.inj (isBinding'.symm.trans isBinding)

/-- All parameters are bound on entry. -/
theorem mem_onEntry
    (plain : ∀ param ∈ params, ∀ binding ∈ parameterDefinition? param, binding.HasPlainName)
    (isParam : param ∈ params) (isBinding : parameterDefinition? param = some reference) :
    reference ∈ (onEntry params).toList := by
  have isKey : Keyed.key reference ∈ (onEntry params).keys := by
    rw [onEntry, KeyedSet.mem_keys_ofList]
    exact List.mem_map_of_mem (List.mem_filterMap.2 ⟨param, isParam, isBinding⟩)
  rcases KeyedSet.mem_keys.1 isKey with ⟨kept, isKept, sameKey⟩
  rcases exists_param_of_mem_onEntry isKept with ⟨param', isParam', isBinding'⟩
  have sameLocation := Reference.location_key_eq_of_key_eq (plain param' isParam' kept isBinding')
    (plain param isParam reference isBinding) sameKey
  rcases owner_of_parameterDefinition? isBinding with ⟨-, -, isLocation⟩
  rcases owner_of_parameterDefinition? isBinding' with ⟨isOwner', -, isLocation'⟩
  have sameOwner : kept.owner.key = param.key := by
    rw [isOwner', Node.key, Node.key, ← isLocation', ← isLocation]
    exact sameLocation
  exact eq_of_mem_onEntry distinct isKept isParam isBinding sameOwner ▸ isKept

theorem seeded_onEntry (keysPlain : ∀ param ∈ params, '>' ∉ param.key.toList)
    (apart : ∀ param ∈ params, ∀ statement ∈ graph.reachableStatements, statement.key ≠ param.key) :
    Seeded graph (onEntry params) where
  areDefinitions := by
    intro reference isMember
    rcases exists_param_of_mem_onEntry isMember with ⟨param, -, isBinding⟩
    exact (owner_of_parameterDefinition? isBinding).2.1
  keysPlain := by
    intro reference isMember
    rcases exists_param_of_mem_onEntry isMember with ⟨param, isParam, isBinding⟩
    rw [(owner_of_parameterDefinition? isBinding).1]
    exact keysPlain param isParam
  distinct := by
    intro reference isMember other isMember' sameKey
    rcases exists_param_of_mem_onEntry isMember' with ⟨param, isParam, isBinding⟩
    rw [(owner_of_parameterDefinition? isBinding).1] at sameKey
    exact eq_of_mem_onEntry distinct isMember isParam isBinding sameKey
  apart := by
    intro reference isMember statement isReachable
    rcases exists_param_of_mem_onEntry isMember with ⟨param, isParam, isBinding⟩
    rw [(owner_of_parameterDefinition? isBinding).1]
    exact (apart param isParam statement isReachable).symm

end

section

variable {definition : Node} {params body decorators : List Node}
  (isDefinition : definition.shape = .definition name params body decorators)
  (distinct : definition.locations.Nodup)

include isDefinition distinct

/-- Where no location occurs twice in a function, keys tell its statements and parameters apart. -/
theorem traceable_of_run {visits : List BlockId}
    (run : Run known (.ofStatements body) (.start (.ofStatements body) (onEntry params)) visits
      progress)
    (described : ∀ statement ∈ (Graph.ofStatements body).reachableStatements,
      Describes statement (known statement))
    (paramsPlain : ∀ param ∈ params, ∀ binding ∈ parameterDefinition? param, binding.HasPlainName)
    (statementsPlain : ∀ statement ∈ (Graph.ofStatements body).reachableStatements,
      (known statement).HasPlainNames)
    (keysPlain : ∀ location ∈ definition.locations, '>' ∉ location.key.toList) :
    Traceable known (.ofStatements body) (onEntry params) progress := by
  have wellFormed : (Graph.ofStatements body).WellFormed :=
    (Graph.ofCommands_laidOut _).wellFormed
  have inScope : ∀ statement ∈ (Graph.ofStatements body).reachableStatements,
      Scope definition statement :=
    fun _ isReachable => .of_mem_reachableStatements isDefinition isReachable
  have plain : ∀ reference, Occurs known (.ofStatements body) (onEntry params) reference →
      reference.HasPlainName := by
    rintro reference (isInitial | ⟨statement, isReachable, level, isMember⟩)
    · rcases exists_param_of_mem_onEntry isInitial with ⟨param, isParam, isBinding⟩
      exact paramsPlain param isParam reference isBinding
    · exact statementsPlain statement isReachable level reference isMember
  have seeded : Seeded (.ofStatements body) (onEntry params) := by
    apply seeded_onEntry (nodup_key_params isDefinition distinct)
    · exact fun param isParam => keysPlain _ (location_mem_of_param isDefinition isParam)
    · exact fun param isParam statement isReachable =>
        (inScope statement isReachable).key_ne_key_param isDefinition distinct isParam
  have owned : ∀ statement ∈ (Graph.ofStatements body).reachableStatements,
      (known statement).OwnedAt statement.key :=
    fun statement isReachable => (described statement isReachable).ownedAt
  have recorded :=
    (kept_orderly plain owned seeded.areDefinitions).recorded wellFormed run
  rcases run.covered wellFormed with ⟨covered, nonePending⟩
  exact
    { wellFormed, covered, nonePending, recorded, seeded, described, plain
      keysPlain := fun statement isReachable =>
        keysPlain _ (inScope statement isReachable).location_mem
      distinct := fun statement isReachable other isReachable' =>
        (inScope statement isReachable).eq_of_key_eq (inScope other isReachable') distinct }

/-- The analysis of a function succeeds, and if it converges, it misses no mutation of a parameter
that is made under its own name or under an alias. -/
theorem exists_function_updates_of_mutates {analyzer : Analyzer}
    (uncached : ∀ location ∈ definition.locations, analyzer.cache.get? location.key = none)
    (isMethod : Bool) :
    ∃ analysis after, (Analysis.function definition isMethod).run analyzer = .ok (analysis, after) ∧
      (analysis.result.converged = true →
        (∀ statement ∈ (Graph.ofStatements body).reachableStatements,
          after.cached? statement = some (after.known statement)) ∧
        ((∀ param ∈ params, ∀ binding ∈ parameterDefinition? param, binding.HasPlainName) →
          (∀ statement ∈ (Graph.ofStatements body).reachableStatements,
            (after.known statement).HasPlainNames) →
          (∀ location ∈ definition.locations, '>' ∉ location.key.toList) →
          ∀ {index param}, params[index]? = some param →
          Mutates after.known (.ofStatements body)
            (Unshared after.known (.ofStatements body) (onEntry params)) param →
          .position ((if isMethod then 0 else 1) + index) ∈ analysis.spec.updates)) := by
  rcases exists_function_describes isDefinition distinct uncached isMethod with
    ⟨analysis, after, run, updatesEq, converges⟩
  refine ⟨analysis, after, run, fun converged => ?_⟩
  rcases converges converged with ⟨described, visits, progress, controls, isRun, resultEq⟩
  refine ⟨fun statement isReachable => (described statement isReachable).1, ?_⟩
  intro paramsPlain statementsPlain keysPlain index param isParam mutates
  have traceable := traceable_of_run isDefinition distinct isRun
    (fun statement isReachable => (described statement isReachable).2) paramsPlain statementsPlain
    keysPlain
  have isSeeded : ∀ binding ∈ parameterDefinition? param, binding ∈ (onEntry params).toList :=
    fun binding isBinding => mem_onEntry (nodup_key_params isDefinition distinct) paramsPlain
      (List.mem_of_getElem? isParam) isBinding
  rw [updatesEq, resultEq]
  apply List.mem_map_of_mem
  exact AnalysisResult.mem_mutatedPositions.2
    ⟨index, param, isParam, traceable.mutatesParameter controls isSeeded mutates, rfl⟩

end

/-- All references that occur somewhere. -/
def occurrences (known : Node → DefUse) (graph : Graph) (initial : RefSet) : List Reference :=
  initial.toList ++ graph.reachableStatements.flatMap fun statement =>
    Level.all.flatMap fun level => ((known statement).level level).toList

theorem mem_occurrences {reference : Reference} :
    reference ∈ occurrences known graph initial ↔ Occurs known graph initial reference := by
  simp [occurrences, Occurs, Level.mem_all]

/-- A parameter of a function in the first line. -/
def plainParameter (name : String) : Node :=
  onLine 1 6 7 (.parameter name none none false false)

/-- A function with one parameter. -/
def functionOf (name : String) (body : List Node) : Node :=
  ⟨.definition "f" [plainParameter name] body [], ⟨1, 0, 9, 0, none⟩⟩

/-- A statement that extends a list, as in `y += c`. -/
def extendingBy (line : Nat) (name : String) : Node :=
  onLine line 0 6 (.assign (some "+") [onLine line 0 1 (.name name)] [onLine line 5 6 (.name "c")])

/-- Statements that extend a list under another name, `y = x` and `y += c`. -/
def aliasingStatements : List Node :=
  [assigning 2 "y" (.name "x"), extendingBy 3 "y"]

/-- A function of these statements mutates its parameter, whose own name no statement mutates. -/
theorem updates_aliasingStatements : ∃ analysis after,
    (Analysis.function (functionOf "x" aliasingStatements) false).run (.ofSpecs []) =
      .ok (analysis, after) ∧
    (∀ statement ∈ aliasingStatements, ¬(after.known statement).Refers .update "x") ∧
    .position 1 ∈ analysis.spec.updates := by
  have distinct : (functionOf "x" aliasingStatements).locations.Nodup := by decide +kernel
  have uncached : ∀ location ∈ (functionOf "x" aliasingStatements).locations,
      (Analyzer.ofSpecs []).cache.get? location.key = none := fun _ _ => rfl
  rcases exists_function_updates_of_mutates rfl distinct uncached false with
    ⟨analysis, after, run, updates⟩
  have facts := holds_of_run
    (fun outcome : FunctionAnalysis × Analyzer => outcome.1.result.converged = true ∧
      (∀ statement ∈ aliasingStatements, ∀ level ∈ Level.all,
        ∀ reference ∈ ((outcome.2.known statement).level level).toList,
          ':' ∉ reference.name.toList) ∧
      (∀ reference ∈ occurrences outcome.2.known (.ofStatements aliasingStatements)
          (onEntry [plainParameter "x"]),
        ∀ other ∈ occurrences outcome.2.known (.ofStatements aliasingStatements)
          (onEntry [plainParameter "x"]),
        other.key = reference.key → other.owner.key = reference.owner.key) ∧
      (∀ statement ∈ aliasingStatements, ¬(outcome.2.known statement).Refers .update "x") ∧
      (outcome.2.known (extendingBy 3 "y")).Refers .update "y") (by decide +kernel) run
  rcases facts with ⟨converged, plain, toldApart, notOwn, isMutated⟩
  refine ⟨analysis, after, run, notOwn, ?_⟩
  have unshared : ∀ reference, Occurs after.known (.ofStatements aliasingStatements)
      (onEntry [plainParameter "x"]) reference →
      Unshared after.known (.ofStatements aliasingStatements) (onEntry [plainParameter "x"])
        reference :=
    fun reference occurs other occurs' => toldApart reference (mem_occurrences.2 occurs) other
      (mem_occurrences.2 occurs')
  have isFirst : Follows (.ofStatements aliasingStatements) none [] (assigning 2 "y" (.name "x")) :=
    ⟨[1], 1, _, .single 1, rfl⟩
  have isNext : Follows (.ofStatements aliasingStatements) (some (assigning 2 "y" (.name "x"))) []
      (extendingBy 3 "y") := ⟨[], [1], 1, _, .single 1, rfl⟩
  have mutates : Mutates after.known (.ofStatements aliasingStatements)
      (Unshared after.known (.ofStatements aliasingStatements) (onEntry [plainParameter "x"]))
      (plainParameter "x") := by
    refine ⟨_, "y", [], _, .synonym (.parameter rfl (unshared _ (.inl ?_))) ⟨_, _, rfl⟩ isFirst
      (by simp) ?_, isNext, by simp, isMutated⟩
    · exact List.mem_cons_self
    · intro reference isBinding
      exact unshared reference (.inr ⟨_, List.mem_cons_self, .definition, isBinding⟩)
  have isParam : [plainParameter "x"][0]? = some (plainParameter "x") := rfl
  refine (updates converged).2 ?_ ?_ (by decide +kernel) isParam mutates
  · simp [parameterDefinition?, plainParameter, onLine, Reference.atNode, Reference.HasPlainName]
  · exact fun statement isReachable level => plain statement isReachable level level.mem_all

/-- Edges that stand for control alone carry no value. -/
theorem mutatesParameter_result {typeHint default : Option Node} {star starstar : Bool}
    (isParameter : param.shape = .parameter name typeHint default star starstar)
    (progress : Progress) (controls : List (Node × Node)) :
    (progress.result controls).mutatesParameter param =
      AnalysisResult.mutatesParameter { dataflows := progress.dataflows } param := by
  have carrying : ∀ {target flow carrier},
      (target, flow) ∈ (progress.result controls).carrying carrier ↔
        (target, flow) ∈ AnalysisResult.carrying { dataflows := progress.dataflows } carrier := by
    intro target flow carrier
    rw [AnalysisResult.mem_carrying, AnalysisResult.mem_carrying]
    constructor
    · rintro ⟨isFlow, targetEq, carries⟩
      rcases KeyedSet.mem_extend isFlow with isDrawn | isControl
      · exact ⟨isDrawn, targetEq, carries⟩
      · rcases List.mem_map.1 isControl with ⟨_, -, rfl⟩
        cases targetEq
    · rintro ⟨isDrawn, rest⟩
      exact ⟨Progress.mem_result isDrawn, rest⟩
  have steps : Search.Steps (progress.result controls).carriers =
      Search.Steps (AnalysisResult.carriers { dataflows := progress.dataflows }) := by
    funext carrier next
    simp only [Search.Steps, AnalysisResult.mem_carriers, carrying]
  rw [Bool.eq_iff_iff]
  simp only [AnalysisResult.mutatesParameter_iff isParameter, carrying, steps]

/-- A function with distinct locations mutates its parameter under its own name or through aliases,
and its analysis does not find that out. -/
def Overlooks (name : String) (body : List Node) : Prop :=
  (functionOf name body).locations.Nodup ∧
  ∃ analysis after, (Analysis.function (functionOf name body) true).run (.ofSpecs []) =
      .ok (analysis, after) ∧
    analysis.result.converged = true ∧
    (∀ reference, Occurs after.known (.ofStatements body) (onEntry [plainParameter name])
      reference → reference.HasPlainName) ∧
    Mutates after.known (.ofStatements body) (fun _ => True) (plainParameter name) ∧
    .position 0 ∉ analysis.spec.updates

/-- The analysis of a method ends as that of its body does. -/
theorem run_method {definition : Node} {params body decorators : List Node}
    {analyzer after : Analyzer} {result : AnalysisResult}
    (isDefinition : definition.shape = .definition name params body decorators)
    (run : (Analysis.graph (.ofStatements body) (onEntry params)).run analyzer =
      .ok (result, after)) :
    (Analysis.function definition true).run analyzer =
      .ok ({ spec := { name, updates := (result.mutatedPositions 0 params).map .position }
             freeUses := result.freeUses
             result }, after) := by
  have built : (liftM (Graph.ofRoot definition) : Analysis Graph).run analyzer =
      .ok (.ofStatements body, analyzer) := by
    rw [Graph.ofRoot, isDefinition]
    rfl
  rw [Analysis.function, functionWith, isDefinition]
  refine (run_bind rfl).trans ?_
  exact (run_bind built).trans ((run_bind run).trans rfl)

theorem overlooks_of_run {name : String} {body : List Node} (facts : Analyzer → Prop)
    [DecidablePred facts] (distinct : (functionOf name body).locations.Nodup)
    (mutates : ∀ after, facts after →
      Mutates after.known (.ofStatements body) (fun _ => True) (plainParameter name))
    (check : (match (iterate Analysis.defUse (.ofStatements body) 10000
        (.start (.ofStatements body) (onEntry [plainParameter name]))).run (.ofSpecs []) with
      | .error _ => false
      | .ok (progress, after) => decide (progress.pending = [] ∧
          (∀ reference ∈ occurrences after.known (.ofStatements body)
            (onEntry [plainParameter name]), ':' ∉ reference.name.toList) ∧
          facts after ∧ AnalysisResult.mutatesParameter { dataflows := progress.dataflows }
            (plainParameter name) = false)) = true) :
    Overlooks name body := by
  refine ⟨distinct, ?_⟩
  split at check
  · cases check
  · next progress after iterates =>
      rcases of_decide_eq_true check with ⟨nonePending, plain, holds, notMutated⟩
      have built : Graph.ofRoot (functionOf name body) = .ok (.ofStatements body) := rfl
      rcases exists_controlPairs built with ⟨controls, found⟩
      have run : (Analysis.graph (.ofStatements body) (onEntry [plainParameter name])).run
          (.ofSpecs []) = .ok (progress.result controls, after) := run_ofGraph found iterates
      have isParameter : (plainParameter name).shape = .parameter name none none false false := rfl
      rw [← mutatesParameter_result isParameter progress controls] at notMutated
      refine ⟨_, after, run_method rfl run, ?_, ?_, mutates after holds, ?_⟩
      · exact List.isEmpty_iff.2 nonePending
      · exact fun reference occurs => plain reference (mem_occurrences.2 occurs)
      · simp [AnalysisResult.mutatedPositions, notMutated]

/-- A string that declares a definition of a name two lines further down. -/
def declaring : Node :=
  onLine 3 4 57 (.literal (.string
    "defs: [\x7b\x22name\x22: \x22y\x22, \x22pos\x22: [[2, 0], [2, 1]]\x7d]"))

/-- What comes before an alias that is made in one branch only. -/
def branchingFront : List Node :=
  [onLine 2 5 6 (.name "c"), onLine 4 2 6 (.elseClause [assigning 5 "y" (.name "x")])]

/-- An alias that is made in one branch only, `y = x`, at a location where the other branch declares
a definition, and `y += c` behind the branches. -/
def branchingStatements : List Node :=
  [onLine 2 2 6 (.conditional (onLine 2 5 6 (.name "c")) [declaring] []
      (some (onLine 4 2 6 (.elseClause [assigning 5 "y" (.name "x")])))),
    extendingBy 6 "y"]

/-- Statements of which the last one, `x += c`, is hidden: the edge to it from the parameter has the
key of the edge between the others. -/
def arrowStatements : List Node :=
  [inFile "1:6-1:7->p" (assigning 3 "a" (.name "c")),
    inFile "q" (onLine 2 0 6 (.assign none [onLine 2 0 1 (.name "b")] [onLine 2 5 6 (.name "a")])),
    inFile "p:3:0-3:5->q" (extendingBy 2 "x")]

/-- A mutation is overlooked if the binding of an alias is taken for one with the same key, or if
the paths of files contain arrows. -/
theorem overlooks_shared_and_hidden :
    Overlooks "x" branchingStatements ∧ Overlooks "x" arrowStatements := by
  constructor
  · refine overlooks_of_run (fun after =>
      (∀ statement ∈ branchingFront, ¬(after.known statement).Refers .definition "x" ∧
        ¬(after.known statement).Refers .update "x") ∧
      (after.known (extendingBy 6 "y")).Refers .update "y")
        (by decide +kernel) ?_ (by decide +kernel)
    rintro after ⟨kept, isMutated⟩
    have clauseRuns : Node.RunsAll [assigning 5 "y" (.name "x")]
        ([assigning 5 "y" (.name "x")] ++ []) .finished := .cons (.straight trivial) .nil
    have runs : Node.RunsAll branchingStatements
        (branchingFront ++ ([assigning 5 "y" (.name "x")] ++ []) ++ ([extendingBy 6 "y"] ++ []))
        .finished :=
      .cons (.conditionalFails (.otherwise (List.cons_ne_nil _ _) clauseRuns))
        (.cons (.straight trivial) .nil)
    have toAlias : Follows (.ofStatements branchingStatements) none branchingFront
        (assigning 5 "y" (.name "x")) := Graph.reaches_of_runsAll runs
    have toMutation : Follows (.ofStatements branchingStatements)
        (some (assigning 5 "y" (.name "x"))) [] (extendingBy 6 "y") :=
      ⟨branchingFront, Graph.reaches_of_runsAll runs⟩
    exact ⟨_, "y", [], _, .synonym (.parameter rfl trivial) ⟨_, _, rfl⟩ toAlias kept
      (fun _ _ => trivial), toMutation, by simp, isMutated⟩
  · refine overlooks_of_run (fun after =>
      (∀ statement ∈ arrowStatements.take 2, ¬(after.known statement).Refers .definition "x") ∧
      (after.known (inFile "p:3:0-3:5->q" (extendingBy 2 "x"))).Refers .update "x")
        (by decide +kernel) ?_ (by decide +kernel)
    rintro after ⟨kept, isMutated⟩
    have toMutation : Follows (.ofStatements arrowStatements) none (arrowStatements.take 2)
        (inFile "p:3:0-3:5->q" (extendingBy 2 "x")) := ⟨[1], 1, [], .single 1, rfl⟩
    exact ⟨_, "x", _, _, .parameter rfl trivial, toMutation, kept, isMutated⟩

end Analysis

end FlowAnalysis
