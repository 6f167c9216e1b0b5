import FlowAnalysis.Proofs.Analysis.Changes

/-!
# What the calls of a statement update

A statement updates variables under bare names, as an augmented assignment does, and by its calls.
Where a call stands there is neither a name nor another call. So the updates of a statement that are
found at a call are those of the variables that the call mutates.
-/

namespace FlowAnalysis

namespace Node

variable {node : Node}

/-- Neither a name in a node nor another call in it stands where a call does. -/
def StandsAlone (call node : Node) : Prop :=
  ∀ inner ∈ node.walk, inner.location = call.location → inner ≠ call →
    inner.nameId? = none ∧ ∀ func args, inner.shape ≠ .call func args

theorem standsAlone_of_nodup {call : Node} (distinct : node.locations.Nodup)
    (isInside : call ∈ node.walk) : call.StandsAlone node := by
  intro inner isInner same differs
  have isListed : call.location ∈ inner.location :: inner.bindingLocations :=
    same ▸ List.mem_cons_self
  exact absurd (eq_of_mem_flatMap distinct isInner isInside isListed List.mem_cons_self) differs

/-! ### Names that occur -/

/-- A name occurs in a node. -/
def Mentions (node : Node) (id : String) : Prop :=
  ∃ inner ∈ node.walk, inner.shape = .name id

theorem Mentions.of_mem_children {child : Node} {id : String} (mentions : child.Mentions id)
    (isChild : child ∈ node.children) : node.Mentions id := by
  rcases mentions with ⟨inner, isInner, isName⟩
  exact ⟨inner, walk_subset_of_mem_children isChild isInner, isName⟩

theorem mentions_of_nameId {id : String} (isName : node.nameId? = some id) : node.Mentions id := by
  refine ⟨node, node.self_mem_walk, ?_⟩
  rw [nameId?] at isName
  split at isName
  · next found =>
      rcases isName with ⟨⟩
      exact found
  · cases isName

/-- Colons in names can be looked for. -/
theorem plain_of_walk (plain : ∀ inner ∈ node.walk,
    (inner.nameId?.all fun id => !id.toList.contains ':') = true) :
    ∀ id, node.Mentions id → ':' ∉ id.toList := by
  rintro id ⟨inner, isInner, isName⟩
  simpa [nameId?, isName] using plain inner isInner

theorem mem_children_dot {value : Node} {name : String} {location : Location} :
    value ∈ (⟨.dot value name, location⟩ : Node).children := by
  simp [children, Shape.children, Shape.fields, Field.subtrees]

theorem mem_children_call {func : Node} {args : List (Argument Node)}
    (isCall : node.shape = .call func args) :
    func ∈ node.children ∧ ∀ argument ∈ args, argument.actual ∈ node.children := by
  have areArguments : ∀ argument ∈ args, argument.actual ∈ args.map Argument.actual :=
    fun argument isArgument => List.mem_map_of_mem isArgument
  simpa [children, isCall, Shape.children, Shape.fields, Field.subtrees] using
    fun argument isArgument => Or.inr (areArguments argument isArgument)

theorem mentions_of_rootVariable {id : String} (isRoot : rootVariable? node = some id) :
    node.Mentions id := by
  fun_induction rootVariable? node with
  | case1 id' location => exact mentions_of_nameId isRoot
  | case2 value name location ih => exact (ih isRoot).of_mem_children mem_children_dot
  | case3 value args location ih =>
      apply (ih isRoot).of_mem_children
      simp [children, Shape.children, Shape.fields, Field.subtrees]
  | case4 value name location args location' ih =>
      exact ((ih isRoot).of_mem_children mem_children_dot).of_mem_children (mem_children_call rfl).1
  | case5 => cases isRoot

theorem mentions_of_receiver {func value : Node} {id : String}
    (isReceiver : receiver? func = some value) (mentions : value.Mentions id) :
    func.Mentions id := by
  rw [receiver?] at isReceiver
  split at isReceiver
  · next isDot =>
      rcases isReceiver with ⟨⟩
      apply mentions.of_mem_children
      simp [children, isDot, Shape.children, Shape.fields, Field.subtrees]
  · cases isReceiver

end Node

/-! ### What a call mutates -/

section

variable {symbols : SymbolTable} {running : RefSet} {call func : Node}
  {args : List (Argument Node)} {name mutated : String} {function : ResolvedFunction}

/-- A call mutates only variables that occur in it. -/
theorem mentions_of_mem_mutatedVariables (isCall : call.shape = .call func args)
    (isMutated : mutated ∈ mutatedVariables symbols running func args) : call.Mentions mutated := by
  rcases Node.mem_children_call isCall with ⟨isFunc, areArguments⟩
  rw [mutatedVariables] at isMutated
  split at isMutated
  · cases isMutated
  · rcases List.mem_filterMap.1 isMutated with ⟨_ | index, -, isMutated⟩
    · rcases Option.bind_eq_some_iff.1 isMutated with ⟨value, isReceiver, isName⟩
      have mentions := Node.mentions_of_receiver isReceiver (Node.mentions_of_nameId isName)
      exact mentions.of_mem_children isFunc
    · rcases Option.bind_eq_some_iff.1 isMutated with ⟨argument, isArgument, isName⟩
      have isChild := areArguments argument (List.mem_of_getElem? isArgument)
      exact (Node.mentions_of_nameId isName).of_mem_children isChild
  · rcases List.mem_append.1 isMutated with isMutated | isMutated
    · rcases List.mem_filterMap.1 isMutated with ⟨argument, isArgument, isRoot⟩
      exact (Node.mentions_of_rootVariable isRoot).of_mem_children (areArguments _ isArgument)
    · rcases Option.bind_eq_some_iff.1 (Option.mem_toList.1 isMutated) with
        ⟨value, isReceiver, isRoot⟩
      have mentions := Node.mentions_of_receiver isReceiver (Node.mentions_of_rootVariable isRoot)
      exact mentions.of_mem_children isFunc

/-- A call of a known function mutates the bare names that stand where the specification says. -/
theorem mem_mutatedVariables_iff (isName : func.shape = .name name)
    (isKnown : symbols.lookupFunction? name = some function) :
    mutated ∈ mutatedVariables symbols running func args ↔
      ∃ index argument, args[index]? = some argument ∧ argument.actual.nameId? = some mutated ∧
        index + 1 ∈ function.spec.positions := by
  have resolved : Callee.resolve symbols running func = .known function.spec := by
    rw [Callee.resolve, isName]
    simp only [isKnown]
    rfl
  have noReceiver : receiver? func = none := by
    rw [receiver?, isName]
  rw [mutatedVariables, resolved, List.mem_filterMap]
  constructor
  · rintro ⟨_ | index, isPosition, isMutated⟩
    · rw [mutatedAt?, noReceiver] at isMutated
      cases isMutated
    · rcases Option.bind_eq_some_iff.1 isMutated with ⟨argument, isArgument, isBare⟩
      exact ⟨index, argument, isArgument, isBare, isPosition⟩
  · rintro ⟨index, argument, isArgument, isBare, isPosition⟩
    exact ⟨index + 1, isPosition, Option.bind_eq_some_iff.2 ⟨argument, isArgument, isBare⟩⟩

/-- The updates that the calls of a statement make, call by call. -/
theorem mem_callUpdates_iff {statement : Node} {reference : Reference} :
    reference ∈ callUpdates symbols running statement ↔
      ∃ call ∈ statement.walkScope, ∃ func args, call.shape = .call func args ∧
        ∃ mutated ∈ mutatedVariables symbols running func args,
          reference = { Reference.atNode .update mutated call statement with kind := .mutation } := by
  rw [callUpdates, List.mem_flatMap]
  constructor
  · rintro ⟨call, inScope, isMember⟩
    split at isMember
    · next func args isCall =>
        rcases List.mem_map.1 isMember with ⟨mutated, isMutated, rfl⟩
        exact ⟨call, inScope, func, args, isCall, mutated, isMutated, rfl⟩
    · cases isMember
  · rintro ⟨call, inScope, func, args, isCall, mutated, isMutated, rfl⟩
    refine ⟨call, inScope, ?_⟩
    rw [isCall]
    exact List.mem_map_of_mem isMutated

end

namespace Analysis

section

variable {symbols : SymbolTable} {statement call func : Node} {args : List (Argument Node)}
  {found : DefUse} {name : String}

theorem level_of_mem_declaredDefinitions {reference : Reference}
    (isDeclared : reference ∈ declaredDefinitions statement) : reference.level = .definition := by
  rcases List.mem_flatMap.1 isDeclared with ⟨node, -, isDeclared⟩
  split at isDeclared
  · rcases List.mem_map.1 isDeclared with ⟨declaration, -, rfl⟩
    rfl
  · cases isDeclared

theorem mentions_of_call {running : RefSet} {mutated : String} (inScope : call ∈ statement.walkScope)
    (isCall : call.shape = .call func args)
    (isMutated : mutated ∈ mutatedVariables symbols running func args) :
    statement.Mentions mutated := by
  rcases mentions_of_mem_mutatedVariables isCall isMutated with ⟨inner, isInner, isName⟩
  have areBeneath := Node.walk_subset_of_mem_walk ((Node.walkScope_sublist_walk _).subset inScope)
  exact ⟨inner, areBeneath isInner, isName⟩

/-- What a statement updates is a bare name in it, or it is mutated by a call in it. -/
theorem exists_name_or_call_of_update {own : List Reference} {running : RefSet}
    (updatesNames : UpdatesNames statement.walk own) {reference : Reference}
    (isUpdate : reference ∈ ((DefUse.ofReferences (own ++ callUpdates symbols running statement ++
      declaredDefinitions statement)).level .update).toList) :
    (∃ node ∈ statement.walk, node.shape = .name reference.name ∧
        reference.location = node.location) ∨
      ∃ call ∈ statement.walkScope, ∃ func args, call.shape = .call func args ∧
        reference.name ∈ mutatedVariables symbols running func args ∧
        reference.location = call.location := by
  rcases DefUse.mem_of_mem_ofReferences isUpdate with ⟨isGiven, atLevel⟩
  rcases List.mem_append.1 isGiven with isGiven | isDeclared
  · rcases List.mem_append.1 isGiven with isOwn | isCalled
    · exact .inl (updatesNames reference isOwn atLevel)
    · rcases mem_callUpdates_iff.1 isCalled with
        ⟨call, inScope, func, args, isCall, mutated, isMutated, rfl⟩
      exact .inr ⟨call, inScope, func, args, isCall, isMutated, rfl⟩
  · rw [level_of_mem_declaredDefinitions isDeclared] at atLevel
    cases atLevel

/-- What a call of a statement mutates the statement updates at the call. -/
theorem exists_update_of_composed {own : List Reference} {running : RefSet}
    (updatesNames : UpdatesNames statement.walk own)
    (composed : found = .ofReferences
      (own ++ callUpdates symbols running statement ++ declaredDefinitions statement))
    (plain : ∀ id, statement.Mentions id → ':' ∉ id.toList) (inScope : call ∈ statement.walkScope)
    (isCall : call.shape = .call func args) {mutated : String}
    (isMutated : mutated ∈ mutatedVariables symbols running func args) :
    ∃ reference ∈ found.updates.toList,
      reference.name = mutated ∧ reference.location = call.location := by
  subst composed
  let given : Reference := { Reference.atNode .update mutated call statement with kind := .mutation }
  have isGiven : given ∈
      own ++ callUpdates symbols running statement ++ declaredDefinitions statement := by
    apply List.mem_append_left
    apply List.mem_append_right
    exact mem_callUpdates_iff.2 ⟨call, inScope, func, args, isCall, mutated, isMutated, rfl⟩
  rcases KeyedSet.mem_keys.1 (DefUse.key_mem_ofReferences isGiven) with
    ⟨reference, isUpdate, sameKey⟩
  have givenPlain : given.HasPlainName := plain _ (mentions_of_call inScope isCall isMutated)
  have isPlain : reference.HasPlainName := by
    apply plain
    rcases exists_name_or_call_of_update updatesNames isUpdate with
      ⟨node, isNode, isName, -⟩ | ⟨call', inScope', func', args', isCall', isMutated, -⟩
    · exact ⟨node, isNode, isName⟩
    · exact mentions_of_call inScope' isCall' isMutated
  refine ⟨reference, isUpdate, ?_, ?_⟩
  · exact (Reference.name_level_eq_of_key_eq isPlain givenPlain sameKey).1
  · exact Location.key_injective (Reference.location_key_eq_of_key_eq isPlain givenPlain sameKey)

/-- The updates of a statement at a call are those of the variables that the call mutates. -/
theorem exists_update_iff_of_composed {own : List Reference} {running : RefSet}
    (updatesNames : UpdatesNames statement.walk own)
    (composed : found = .ofReferences
      (own ++ callUpdates symbols running statement ++ declaredDefinitions statement))
    (plain : ∀ id, statement.Mentions id → ':' ∉ id.toList) (inScope : call ∈ statement.walkScope)
    (isCall : call.shape = .call func args) (alone : call.StandsAlone statement) (mutated : String) :
    (∃ reference ∈ found.updates.toList,
      reference.name = mutated ∧ reference.location = call.location) ↔
    mutated ∈ mutatedVariables symbols running func args := by
  constructor
  · rintro ⟨reference, isUpdate, rfl, sameLocation⟩
    subst composed
    rcases exists_name_or_call_of_update updatesNames isUpdate with
      ⟨node, isNode, isName, atNode⟩ | ⟨call', inScope', func', args', isCall', isMutated, atCall⟩
    · have differs : node ≠ call := by
        rintro rfl
        cases isName.symm.trans isCall
      have noName := (alone node isNode (atNode.symm.trans sameLocation) differs).1
      rw [Node.nameId?, isName] at noName
      cases noName
    · have same : call' = call := by
        by_contra differs
        have isInner := (Node.walkScope_sublist_walk _).subset inScope'
        exact (alone call' isInner (atCall.symm.trans sameLocation) differs).2 func' args' isCall'
      rw [same, isCall] at isCall'
      rcases isCall' with ⟨⟩
      exact isMutated
  · exact exists_update_of_composed updatesNames composed plain inScope isCall

theorem Composes.exists_update_iff (composes : Composes symbols statement found)
    (noScope : opensNamedScope statement = false)
    (plain : ∀ id, statement.Mentions id → ':' ∉ id.toList) (inScope : call ∈ statement.walkScope)
    (isCall : call.shape = .call func args) (alone : call.StandsAlone statement) :
    ∃ running, ∀ mutated,
      (∃ reference ∈ found.updates.toList,
        reference.name = mutated ∧ reference.location = call.location) ↔
      mutated ∈ mutatedVariables symbols running func args := by
  rcases composes noScope with ⟨own, running, updatesNames, composed⟩
  exact ⟨running, exists_update_iff_of_composed updatesNames composed plain inScope isCall alone⟩

end

end Analysis

end FlowAnalysis
