import FlowAnalysis.Proofs.Analysis.FirstVisit

/-!
# Types of receivers

A method call is resolved by the type of its receiver. The analysis takes the type from a definition
of the receiver that reaches the call when it is met for the first time, so one definition on one
path is enough, whatever is assigned on the others. If no definition tells a type with the method,
the call is taken to update its receiver and everything that it is passed.
-/

namespace FlowAnalysis

namespace Dictionary

variable {Value : Type} {dictionary : Dictionary Value} {key sought : String} {value : Value}

theorem get?_eq_none_of_insert (unset : (dictionary.insert key value).get? sought = none) :
    dictionary.get? sought = none := by
  rw [get?_insert] at unset
  split at unset
  · cases unset
  · exact unset

theorem get?_eq_none_of_extend {additions : Dictionary Value}
    (unset : (dictionary.extend additions).get? sought = none) : dictionary.get? sought = none := by
  induction additions generalizing dictionary with
  | nil => exact unset
  | cons entry rest ih => exact get?_eq_none_of_insert (ih unset)

end Dictionary

/-! ### Names that stand for no module -/

namespace SymbolTable

variable {table : SymbolTable} {name : String}

theorem module_eq_none_of_foldl {Item : Type} {step : SymbolTable → Item → SymbolTable}
    {items : List Item}
    (each : ∀ item table, (step table item).module? name = none → table.module? name = none)
    (unbound : (items.foldl step table).module? name = none) : table.module? name = none := by
  induction items generalizing table with
  | nil => exact unbound
  | cons first rest ih => exact each first table (ih unbound)

theorem module_eq_none_of_importModule {path : String} {boundAs : Option String}
    (unbound : ((table.importModule? path boundAs).getD table).module? name = none) :
    table.module? name = none := by
  rw [importModule?] at unbound
  cases isFound : table.importable? path with
  | none => simpa [isFound] using unbound
  | some module =>
      rw [isFound] at unbound
      exact Dictionary.get?_eq_none_of_insert unbound

theorem module_eq_none_of_importMember {module : ModuleSpec} {imported : ImportName}
    (unbound : (table.importMember module imported).module? name = none) :
    table.module? name = none := by
  rw [importMember] at unbound
  split at unbound
  · exact unbound
  · split at unbound
    · exact Dictionary.get?_eq_none_of_insert unbound
    · exact unbound
    · exact unbound
    · exact unbound

theorem module_eq_none_of_importFrom {base : String} {imports : List ImportName}
    (unbound : ((table.importFrom? base imports).getD table).module? name = none) :
    table.module? name = none := by
  rw [importFrom?] at unbound
  cases isFound : table.importable? base with
  | none => simpa [isFound] using unbound
  | some module =>
      rw [isFound] at unbound
      refine module_eq_none_of_foldl (fun imported table unbound => ?_) unbound
      split at unbound
      · exact Dictionary.get?_eq_none_of_extend unbound
      · exact module_eq_none_of_importMember unbound

end SymbolTable

namespace Analysis

variable {name : String} {statement : Node}

theorem Binds.module_eq_none {change : SymbolTable → SymbolTable} (binds : Binds statement change)
    {table : SymbolTable} (unbound : (change table).module? name = none) :
    table.module? name = none := by
  cases binds with
  | modules =>
      exact SymbolTable.module_eq_none_of_foldl
        (fun _ _ unbound => SymbolTable.module_eq_none_of_importModule unbound) unbound
  | members => exact SymbolTable.module_eq_none_of_importFrom unbound
  | function => exact unbound
  | type => exact unbound

/-- What stands for no module in the end never has. -/
theorem Changes.module_eq_none {scope : Node → Prop} {before after : Analyzer}
    (changes : Changes scope before after) (unbound : after.symbols.module? name = none) :
    before.symbols.module? name = none := by
  induction changes with
  | refl => exact unbound
  | tail _ change ih =>
      cases change with
      | bind _ binds => exact ih (binds.module_eq_none unbound)
      | keep => exact ih unbound

end Analysis

/-! ### Definitions that tell a type -/

/-- A reference defines a name and tells the type of its value. -/
def Reference.Tells (reference : Reference) (type : TypeSpec) : Prop :=
  reference.level = .definition ∧ reference.inferredType = some type

/-- A statement binds a bare name to the result of a call that returns a value of a type. The call
stands in the place of the name among the sources. -/
inductive BindsResult (symbols : SymbolTable) (statement : Node) (name : String) (type : TypeSpec) :
    Prop where
  | intro {targets sources : List Node} {index : Nat} {target source func : Node}
      {args : List (Argument Node)} (isAssigned : statement.shape = .assign none targets sources)
      (isTarget : targets[index]? = some target) (isName : target.shape = .name name)
      (isSource : sources[index]? = some source) (isCall : source.shape = .call func args)
      (returns : (symbols.lookupCallee? func).bind ResolvedFunction.returnsType = some type)

section

variable {statement : Node} {reference : Reference} {type : TypeSpec}

theorem not_tells_of_level (differs : reference.level ≠ .definition) : ¬reference.Tells type :=
  fun tells => differs tells.1

theorem not_tells_of_declares (declares : reference.Declares) : ¬reference.Tells type := by
  rintro ⟨isDefinition, isTyped⟩
  rcases declares with isUse | ⟨-, untyped⟩
  · rw [isUse] at isDefinition
    cases isDefinition
  · rw [untyped] at isTyped
    cases isTyped

theorem not_tells_of_mem_nameUses {expressions : List Node}
    (isUse : reference ∈ expressions.flatMap fun expression => nameUses expression statement) :
    ¬reference.Tells type := by
  rcases List.mem_flatMap.1 isUse with ⟨expression, -, isUse⟩
  apply not_tells_of_level
  rw [level_of_mem_nameUses isUse]
  decide

mutual

/-- Only a bare name is given a type. -/
theorem tells_of_mem_targetReferences (level : Level) (inferred : Option TypeSpec) :
    (target : Node) → reference ∈ targetReferences statement level inferred target →
      reference.Tells type →
        target.shape = .name reference.name ∧ inferred = some type ∧ level = .definition
  | target, isMember, tells => by
      unfold targetReferences at isMember
      split at isMember
      · rw [List.mem_singleton.1 isMember] at tells ⊢
        exact ⟨rfl, tells.2, tells.1⟩
      · cases (tells_of_mem_targetReferences _ _ _ isMember tells).2.1
      · rcases List.mem_append.1 isMember with isMember | isUse
        · cases (tells_of_mem_targetReferences _ _ _ isMember tells).2.1
        · rcases List.mem_flatMap.1 isUse with ⟨argument, -, isUse⟩
          exact absurd tells (not_tells_of_level (by rw [level_of_mem_nameUses isUse]; decide))
      · next items location =>
          exact absurd tells (not_tells_of_mem_targetListReferences _ items isMember)
      · next items comp location =>
          exact absurd tells (not_tells_of_mem_targetListReferences _ items isMember)
      · cases (tells_of_mem_targetReferences _ _ _ isMember tells).2.1
      · cases isMember

theorem not_tells_of_mem_targetListReferences (level : Level) : (targets : List Node) →
    reference ∈ targetListReferences statement level targets → ¬reference.Tells type
  | [], isMember, _ => nomatch isMember
  | target :: rest, isMember, tells => by
      rcases List.mem_append.1 isMember with isMember | isMember
      · cases (tells_of_mem_targetReferences _ _ _ isMember tells).2.1
      · exact not_tells_of_mem_targetListReferences _ rest isMember tells

end

namespace Analysis

theorem exists_of_mem_assignedReferences {level : Level} {targets : List Node}
    {types : List (Option TypeSpec)}
    (isMember : reference ∈ assignedReferences statement level targets types)
    (tells : reference.Tells type) :
    ∃ (index : Nat) (target : Node), targets[index]? = some target ∧
      target.shape = .name reference.name ∧
      types[index]? = some (some type) ∧ level = .definition := by
  induction targets generalizing types with
  | nil => cases isMember
  | cons first rest ih =>
      rcases List.mem_append.1 isMember with isFirst | isLater
      · rcases tells_of_mem_targetReferences _ _ _ isFirst tells with ⟨isName, isTyped, atLevel⟩
        refine ⟨0, first, rfl, isName, ?_, atLevel⟩
        rw [← List.head?_eq_getElem?]
        exact Option.join_eq_some_iff.1 isTyped
      · rcases ih isLater with ⟨index, target, isTarget, isName, isTyped, atLevel⟩
        rw [List.getElem?_tail] at isTyped
        exact ⟨index + 1, target, isTarget, isName, isTyped, atLevel⟩

theorem exists_call_of_inferredTypes {symbols : SymbolTable} {sources : List Node} {index : Nat}
    (isTyped : (inferredTypes symbols sources)[index]? = some (some type)) :
    ∃ source func args, sources[index]? = some source ∧ source.shape = .call func args ∧
      (symbols.lookupCallee? func).bind ResolvedFunction.returnsType = some type := by
  rw [inferredTypes, List.getElem?_map] at isTyped
  rcases Option.map_eq_some_iff.1 isTyped with ⟨source, isSource, isTyped⟩
  split at isTyped
  · next func args isCall => exact ⟨source, func, args, isSource, isCall, isTyped⟩
  · cases isTyped

theorem bindsResult_of_mem_assignmentReferences {symbols : SymbolTable} {op : Option String}
    {targets sources : List Node} (isAssigned : statement.shape = .assign op targets sources)
    (isMember : reference ∈ assignmentReferences symbols statement op targets sources)
    (tells : reference.Tells type) : BindsResult symbols statement reference.name type := by
  rcases List.mem_append.1 isMember with isMember | isUse
  · rcases exists_of_mem_assignedReferences isMember tells with
      ⟨index, target, isTarget, isName, isTyped, atLevel⟩
    rcases exists_call_of_inferredTypes isTyped with ⟨source, func, args, isSource, isCall, returns⟩
    cases op with
    | none => exact .intro isAssigned isTarget isName isSource isCall returns
    | some op => cases atLevel
  · exact absurd tells (not_tells_of_mem_nameUses isUse)

theorem not_tells_of_mem_imported {names : List ImportName}
    (isMember : reference ∈ names.map fun name =>
      statementDefinition .imported name.boundName statement) : ¬reference.Tells type := by
  rcases List.mem_map.1 isMember with ⟨name, -, rfl⟩
  exact fun tells => nomatch tells.2

/-- Apart from functions and classes, only assignments tell types on their own. -/
theorem bindsResult_of_run_ownReferences {transfer : Transfer} {own : List Reference}
    {analyzer after : Analyzer} (noScope : opensNamedScope statement = false)
    (run : (ownReferences transfer statement).run analyzer = .ok (own, after))
    (isMember : reference ∈ own) (tells : reference.Tells type) :
    BindsResult analyzer.symbols statement reference.name type := by
  rw [ownReferences] at run
  split at run
  · rcases exists_of_run_bind run with ⟨_, _, -, ⟨⟩⟩
    exact absurd tells (not_tells_of_mem_imported isMember)
  · rcases exists_of_run_bind run with ⟨_, _, -, ⟨⟩⟩
    exact absurd tells (not_tells_of_mem_imported isMember)
  · next isDefinition => simp [opensNamedScope, isDefinition] at noScope
  · next isClass => simp [opensNamedScope, isClass] at noScope
  · next isAssigned =>
      rcases exists_of_run_bind run with ⟨_, _, ⟨⟩, ⟨⟩⟩
      exact bindsResult_of_mem_assignmentReferences isAssigned isMember tells
  all_goals cases run
  any_goals cases isMember
  · exact absurd tells (not_tells_of_mem_targetListReferences _ _ isMember)
  · rw [Reference.Tells, level_of_mem_nameUses isMember] at tells
    cases tells.1

/-- If a type is told by what is found out about a statement that was not known, the statement binds
the name to the result of a call. -/
theorem bindsResult_of_run_defUse {running : RefSet} {analyzer after : Analyzer} {found : DefUse}
    (unknown : analyzer.cached? statement = none) (noScope : opensNamedScope statement = false)
    (run : (defUse statement running).run analyzer = .ok (found, after))
    (isMember : reference ∈ (found.level .definition).toList) (tells : reference.Tells type) :
    BindsResult analyzer.symbols statement reference.name type := by
  rcases exists_own_of_run_defUse unknown run with ⟨own, between, refers, -, composed⟩
  rw [composed noScope] at isMember
  rcases DefUse.mem_of_mem_ofReferences isMember with ⟨isGiven, -⟩
  rcases List.mem_append.1 isGiven with isGiven | isDeclared
  · rcases List.mem_append.1 isGiven with isOwn | isCalled
    · exact bindsResult_of_run_ownReferences noScope refers isOwn tells
    · rcases mem_callUpdates_iff.1 isCalled with ⟨_, -, _, _, -, _, -, rfl⟩
      cases tells.1
  · exact absurd tells (not_tells_of_declares (declares_of_mem_declaredDefinitions isDeclared))

end Analysis

end

/-! ### Method calls -/

/-- The receiver of a call and the variables that its arguments are rooted in. -/
def Touches (receiver : String) (args : List (Argument Node)) (name : String) : Prop :=
  name = receiver ∨ ∃ argument ∈ args, rootVariable? argument.actual = some name

/-- The bare names at the positions of a call that a specification lists. -/
def FunctionSpec.Lists (spec : FunctionSpec) (func : Node) (args : List (Argument Node))
    (name : String) : Prop :=
  ∃ position ∈ spec.positions, mutatedAt? func args position = some name

section

variable {symbols : SymbolTable} {running : RefSet} {func value : Node}
  {args : List (Argument Node)}
  {receiver method : String}

theorem exists_of_inferredType {type : TypeSpec}
    (isTyped : Callee.inferredType? running receiver = some type) :
    ∃ reference ∈ running.toList,
      reference.name = receiver ∧ reference.inferredType = some type := by
  rcases List.exists_of_findSome?_eq_some isTyped with ⟨reference, isFiltered, isTyped⟩
  rcases List.mem_filter.1 isFiltered with ⟨isMember, isNamed⟩
  exact ⟨reference, isMember, eq_of_beq isNamed, isTyped⟩

/-- A method call mutates what the method does according to the type of the receiver, and if the
type is not known or has no such method, everything that it touches. -/
theorem mem_mutatedVariables_method (isMethod : func.shape = .dot value method)
    (isReceiver : value.shape = .name receiver) (noModule : symbols.module? receiver = none) :
    (∀ name, name ∈ mutatedVariables symbols running func args ↔ Touches receiver args name) ∨
      ∃ type spec, Callee.inferredType? running receiver = some type ∧
        type.method? method = some spec ∧
        ∀ name, name ∈ mutatedVariables symbols running func args ↔ spec.Lists func args name := by
  have resolved : Callee.resolve symbols running func = .ofSpec?
      ((Callee.inferredType? running receiver).bind fun type => type.method? method) := by
    rw [Callee.resolve, isMethod]
    simp only [isReceiver, noModule]
  have isRoot : (receiver? func).bind rootVariable? = some receiver := by
    rw [receiver?, isMethod]
    rcases value with ⟨shape, location⟩
    simp only at isReceiver
    subst isReceiver
    rfl
  cases found : (Callee.inferredType? running receiver).bind fun type => type.method? method with
  | none =>
      left
      intro name
      rw [mutatedVariables, resolved, found, Callee.ofSpec?, isRoot]
      simp [Touches, or_comm, eq_comm]
  | some spec =>
      rcases Option.bind_eq_some_iff.1 found with ⟨type, isTyped, isMethodOf⟩
      refine .inr ⟨type, spec, isTyped, isMethodOf, fun name => ?_⟩
      rw [mutatedVariables, resolved, found, Callee.ofSpec?, List.mem_filterMap]
      rfl

end

namespace Analysis

/-- What a statement updates at a call is what a property of names says. -/
def UpdatesAt (found : DefUse) (call : Node) (names : String → Prop) : Prop :=
  ∀ name, (∃ reference ∈ found.updates.toList,
    reference.name = name ∧ reference.location = call.location) ↔ names name

/-- A name has a type on some path to a statement: a statement on the path binds it to the result of
a call that returns a value of the type, as names are understood when that statement is visited, and
nothing behind it on the path defines the name again. -/
inductive TypedOnPath (code : List Node) (start final : Analyzer) (statement : Node) (name : String)
    (type : TypeSpec) : Prop where
  | intro {earlier between visited : List Node} {binder : Node} {reference : Reference}
      {before : Analyzer}
      (reaches : (Graph.ofStatements code).Reaches (earlier ++ binder :: between) statement)
      (untouched : ∀ later ∈ between, ¬(final.known later).Rebinds .update name)
      (isDefinition : reference ∈ (final.known binder).definitions.toList)
      (isNamed : reference.name = name) (isTyped : reference.inferredType = some type)
      (areReachable : visited ⊆ (Graph.ofStatements code).reachableStatements)
      (learns : Learns start visited before) (unknown : before.cached? binder = none)
      (bindsResult : BindsResult before.symbols binder name type)

section

variable {root statement : Node} {analyzer final : Analyzer} {result : AnalysisResult}
  {found : DefUse} (arises : analyzer.Arises) (distinct : root.innerPlaces.Nodup)
  (clauses : root.HasPlainClauses)
  (uncached : ∀ location ∈ root.innerPlaces, analyzer.cache.get? location.key = none)

include arises distinct clauses uncached

/-- What tells a type when a statement is visited is a definition that reaches the statement on some
path. -/
theorem FirstVisit.typedOnPath {running : RefSet} {before after : Analyzer}
    (visit : FirstVisit root.parts analyzer final statement running before after found)
    (run : (Analysis.graph (.ofStatements root.parts) .empty).run analyzer = .ok (result, final))
    (plain : ∀ reference, Occurs final.known (.ofStatements root.parts) .empty reference →
      reference.HasPlainName)
    {reference : Reference} (isMember : reference ∈ running.toList) {type : TypeSpec}
    (isTyped : reference.inferredType = some type) :
    TypedOnPath root.parts analyzer final statement reference.name type := by
  have wellFormed : (Graph.ofStatements root.parts).WellFormed :=
    (Graph.ofCommands_laidOut _).wellFormed
  rcases visit.inForce reference isMember with ⟨passed, reaches, inForce⟩
  cases inForce with
  | initial _ isInitial _ => exact absurd isInitial List.not_mem_nil
  | @bound earlier between binder _ binds untouched =>
      rcases binds with ⟨level, isGenerated, isDefinition⟩
      rcases List.mem_singleton.1 isGenerated with rfl
      have isReachable := reaches.of_append.mem_reachableStatements wellFormed
      rcases List.mem_flatMap.1 isReachable with ⟨id, -, isPlaced⟩
      cases isKnown : final.cached? binder with
      | none =>
          rw [Analyzer.known, isKnown] at isDefinition
          cases isDefinition
      | some found' =>
          have isDefinition' := isDefinition
          rw [Analyzer.known_eq isKnown] at isDefinition'
          rcases exists_firstVisit distinct clauses isReachable arises run plain uncached isKnown
            with ⟨running', before', after', visit'⟩
          have belongs := holds_of_run_graph distinct uncached run _ _ isKnown binder
            (transGen_isPart_of_mem_statements isPlaced) rfl
          have tells : reference.Tells type :=
            ⟨(belongs.ownedAt .definition reference isDefinition').1, isTyped⟩
          have noScope : opensNamedScope binder = false := by
            by_contra opens
            have declares :=
              belongs.declares (by simpa using opens) .definition reference isDefinition'
            exact not_tells_of_declares declares tells
          rcases visit'.earlier with ⟨visited, areReachable, learns⟩
          exact .intro reaches untouched isDefinition rfl isTyped areReachable learns visit'.unknown
            (bindsResult_of_run_defUse visit'.unknown noScope visit'.run isDefinition' tells)

variable {code : List Node} (isModule : root.shape = .module code)

include isModule

/-- A method call of a name that stands for no module updates its receiver and the variables that
its arguments are rooted in, unless the name has a type with the method on some path to the call:
one such definition is enough, and the call then updates what the method does. -/
theorem exists_module_updates_of_receiver :
    ∃ result final, (Analysis.module root).run analyzer = .ok (result, final) ∧
      (result.converged = true → ∀ statement ∈ (Graph.ofStatements code).reachableStatements,
        ∃ found, final.cached? statement = some found) ∧
      ((∀ reference, Occurs final.known (.ofStatements code) .empty reference →
          reference.HasPlainName) →
        ∀ {statement found}, statement ∈ (Graph.ofStatements code).reachableStatements →
          final.cached? statement = some found → opensNamedScope statement = false →
          (∀ id, statement.Mentions id → ':' ∉ id.toList) →
          ∀ {call func value args receiver method}, call ∈ statement.walkScope →
            call.StandsAlone statement → call.shape = .call func args →
            func.shape = .dot value method → value.shape = .name receiver →
            final.symbols.module? receiver = none →
              UpdatesAt found call (Touches receiver args) ∨
              ∃ type spec, TypedOnPath code analyzer final statement receiver type ∧
                type.method? method = some spec ∧ UpdatesAt found call (spec.Lists func args)) := by
  have partsEq : root.parts = code := Node.parts_of_module isModule
  have built : Graph.ofRoot root = .ok (.ofStatements code) := by
    rw [Graph.ofRoot, isModule]
  rcases exists_run_module (.inl ⟨_, isModule⟩) analyzer with ⟨result, final, run⟩
  refine ⟨result, final, run, ?_⟩
  rw [run_module built] at run
  constructor
  · intro converged statement isReachable
    rcases learns_of_graph built run with ⟨front, back, listed, learns, ends⟩
    rw [listed, ends converged, List.append_nil] at isReachable
    exact learns.exists_known isReachable
  subst partsEq
  intro plain statement found isReachable isKnown noScope namesPlain call func value args receiver
    method inScope alone isCall isMethod isReceiver noModule
  rcases exists_firstVisit distinct clauses isReachable arises run plain uncached isKnown with
    ⟨running, before, after, visit⟩
  rcases exists_own_of_run_defUse visit.unknown visit.run with
    ⟨own, between, -, updatesOwn, composed⟩
  have noModule' := visit.later.module_eq_none noModule
  have updates_iff := exists_update_iff_of_composed (updatesOwn noScope) (composed noScope)
    namesPlain inScope isCall alone
  rcases mem_mutatedVariables_method isMethod isReceiver noModule' with
    touches | ⟨type, spec, isTyped, isMethodOf, lists⟩
  · exact .inl fun name => (updates_iff name).trans (touches name)
  · rcases exists_of_inferredType isTyped with ⟨reference, isMember, rfl, tellsType⟩
    have typed := visit.typedOnPath arises distinct clauses uncached run plain isMember tellsType
    exact .inr ⟨type, spec, typed, isMethodOf, fun name => (updates_iff name).trans (lists name)⟩

end

/-! ### A receiver that can have a type -/

/-- A call `v.m(x)`. -/
def methodCall (line column : Nat) : Node :=
  onLine line column (column + 6) (.call
    (onLine line column (column + 3) (.dot (onLine line column (column + 1) (.name "v")) "m"))
    [⟨onLine line (column + 4) (column + 5) (.name "x"), none, false, false⟩])

/-- A statement that assigns the result of a call of a name to `v`. -/
def assigningCall (line column : Nat) (name : String) : Node :=
  onLine line column (column + 7) (.assign none [onLine line column (column + 1) (.name "v")]
    [onLine line (column + 4) (column + 7)
      (.call (onLine line (column + 4) (column + 5) (.name name)) [])])

/-- Statements `v = g()` and `v.m(x)`. -/
def untypedStatements : List Node :=
  [assigningCall 1 0 "g", methodCall 2 0]

/-- A module of some statements. -/
def moduleOf (code : List Node) : Node :=
  ⟨.module code, ⟨1, 0, 9, 0, none⟩⟩

/-- The receiver and the argument of the call are updated where nothing tells a type of the
receiver. -/
theorem updates_untypedReceiver : ∃ result final found,
    (Analysis.module (moduleOf untypedStatements)).run (.ofSpecs []) = .ok (result, final) ∧
      final.cached? (methodCall 2 0) = some found ∧
      ∀ name ∈ ["v", "x"], ∃ reference ∈ found.updates.toList,
        reference.name = name ∧ reference.location = (methodCall 2 0).location := by
  have arises : (Analyzer.ofSpecs []).Arises := .new (.ofSpecs []) true 10000
  have distinct : (moduleOf untypedStatements).innerPlaces.Nodup :=
    Node.innerPlaces_nodup (by decide +kernel)
  have clauses : (moduleOf untypedStatements).HasPlainClauses :=
    Node.hasPlainClauses_of_walk (by decide +kernel)
  rcases exists_module_updates_of_receiver arises distinct clauses (fun _ _ => rfl) rfl with
    ⟨result, final, run, known, updates⟩
  have onlyStatements : (Graph.ofStatements untypedStatements).reachableStatements =
      untypedStatements := rfl
  have facts := holds_of_run
    (fun outcome : AnalysisResult × Analyzer => outcome.1.converged = true ∧
      (outcome.2.symbols.module? "v").isNone = true ∧
      (∀ statement ∈ untypedStatements, ∀ level ∈ Level.all,
        ∀ reference ∈ ((outcome.2.known statement).level level).toList,
          ':' ∉ reference.name.toList) ∧
      ∀ statement ∈ untypedStatements,
        ∀ reference ∈ (outcome.2.known statement).definitions.toList,
          reference.inferredType.isNone = true) (by decide +kernel) run
  rcases facts with ⟨converged, noModule, plain, untyped⟩
  have isReachable :
      methodCall 2 0 ∈ (Graph.ofStatements untypedStatements).reachableStatements := by
    rw [onlyStatements]
    simp [untypedStatements]
  have occursPlain : ∀ reference,
      Occurs final.known (.ofStatements untypedStatements) .empty reference →
      reference.HasPlainName := by
    rintro reference (absent | ⟨statement, isReachable, level, isMember⟩)
    · exact absurd absent List.not_mem_nil
    · exact plain statement (onlyStatements ▸ isReachable) level level.mem_all reference isMember
  rcases known converged _ isReachable with ⟨found, isKnown⟩
  have alone : (methodCall 2 0).StandsAlone (methodCall 2 0) :=
    Node.standsAlone_of_nodup (by decide +kernel) (methodCall 2 0).self_mem_walk
  refine ⟨result, final, found, run, isKnown, fun name isNamed => ?_⟩
  rcases updates occursPlain isReachable isKnown rfl (Node.plain_of_walk (by decide +kernel))
    List.mem_cons_self alone rfl rfl rfl (Option.isNone_iff_eq_none.1 noModule) with
    touches | ⟨type, spec, typed, -⟩
  · apply (touches name).2
    rcases List.mem_cons.1 isNamed with rfl | isArgument
    · exact .inl rfl
    · rcases List.mem_singleton.1 isArgument with rfl
      exact .inr ⟨_, List.mem_cons_self, rfl⟩
  · rcases typed with ⟨reaches, -, isDefinition, -, isTyped, -⟩
    have wellFormed : (Graph.ofStatements untypedStatements).WellFormed :=
      (Graph.ofCommands_laidOut _).wellFormed
    have isListed := reaches.of_append.mem_reachableStatements wellFormed
    have isUntyped := untyped _ (onlyStatements ▸ isListed) _ isDefinition
    rw [isTyped] at isUntyped
    cases isUntyped

/-- The analysis of some code does not update the receiver of a call `v.m(x)` in a statement,
although one of the definitions of the receiver that reach the statement does not bind it to the
result of a call that returns a value of any type. -/
def OverlooksReceiver (code : List Node) (statement call : Node) : Prop :=
  (moduleOf code).locations.Nodup ∧ call ∈ statement.walk ∧
    ∃ result final found,
      (Analysis.module (moduleOf code)).run (.ofSpecs []) = .ok (result, final) ∧
      result.converged = true ∧ final.cached? statement = some found ∧
      final.symbols.module? "v" = none ∧
      (∃ earlier binder between,
        (Graph.ofStatements code).Reaches (earlier ++ binder :: between) statement ∧
          (final.known binder).Refers .definition "v" ∧
          (∀ later ∈ between, ¬(final.known later).Refers .definition "v") ∧
          ∀ type, ¬BindsResult final.symbols binder "v" type) ∧
      ¬found.Refers .update "v"

/-- An analysis finds no update of `v` in a statement, and some statement defines it that others do
not define it again. -/
abbrev SparesReceiver (statement binder : Node) (between : List Node)
    (outcome : AnalysisResult × Analyzer) : Prop :=
  outcome.1.converged = true ∧ (outcome.2.cached? statement).isSome = true ∧
    (outcome.2.symbols.module? "v").isNone = true ∧
    (outcome.2.symbols.lookupFunction? "g").isNone = true ∧
    (outcome.2.known binder).Refers .definition "v" ∧
    (∀ later ∈ between, ¬(outcome.2.known later).Refers .definition "v") ∧
    ¬(outcome.2.known statement).Refers .update "v"

theorem not_bindsResult_assigningCall {symbols : SymbolTable} {line column : Nat}
    (unknown : symbols.lookupFunction? "g" = none) {type : TypeSpec} :
    ¬BindsResult symbols (assigningCall line column "g") "v" type := by
  rintro ⟨⟨⟩, isTarget, isName, isSource, isCall, returns⟩
  rename_i index target source func args
  cases index with
  | succ index => cases isSource
  | zero =>
      rcases isSource with ⟨⟩
      rcases isCall with ⟨⟩
      have unresolved : symbols.lookupCallee? (onLine line (column + 4) (column + 5) (.name "g")) =
          none := unknown
      rw [unresolved] at returns
      cases returns

theorem overlooksReceiver_of_spares {code earlier between : List Node} {statement call : Node}
    {line column : Nat} (distinct : (moduleOf code).locations.Nodup)
    (isInside : call ∈ statement.walk)
    (reaches : (Graph.ofStatements code).Reaches
      (earlier ++ assigningCall line column "g" :: between) statement)
    (spares : ∀ outcome, (Analysis.module (moduleOf code)).run (.ofSpecs []) = .ok outcome →
      SparesReceiver statement (assigningCall line column "g") between outcome) :
    OverlooksReceiver code statement call := by
  rcases exists_run_module (.inl ⟨code, rfl⟩ : (moduleOf code).IsRoot) (.ofSpecs []) with
    ⟨result, final, run⟩
  rcases spares _ run with ⟨converged, isKnown, noModule, unknown, defines, untouched, spared⟩
  rcases Option.isSome_iff_exists.1 isKnown with ⟨found, isKnown⟩
  have knownEq : final.known statement = found := Analyzer.known_eq isKnown
  refine ⟨distinct, isInside, result, final, found, run, converged, isKnown,
    Option.isNone_iff_eq_none.1 noModule, ⟨earlier, _, between, reaches, defines, untouched, ?_⟩,
    knownEq ▸ spared⟩
  exact fun type => not_bindsResult_assigningCall (Option.isNone_iff_eq_none.1 unknown)

/-- The second of two straight statements is reached through the first one. -/
theorem reaches_of_straight {statement next : Node} (isStraight : statement.Straight)
    (nextStraight : next.Straight) :
    (Graph.ofStatements [statement, next]).Reaches ([] ++ statement :: []) next := by
  have runs : Node.RunsAll [statement, next] ([statement] ++ ([next] ++ [])) .finished :=
    .cons (.straight isStraight) (.cons (.straight nextStraight) .nil)
  exact Graph.reaches_of_runsAll runs

/-- A class `C` with a method `m` that updates nothing. -/
def idleClass : Node :=
  ⟨.classDefinition "C" []
    [⟨.definition "m" [onLine 2 8 12 (.parameter "self" none none false false)]
      [onLine 3 4 8 .pass] [], ⟨2, 2, 3, 8, none⟩⟩] [], ⟨1, 0, 3, 8, none⟩⟩

/-- An else clause `v = g()`. -/
def untypedClause : Node :=
  ⟨.elseClause [assigningCall 7 2 "g"], ⟨6, 0, 7, 9, none⟩⟩

/-- Statements in which `v` is bound to a value of the class in one branch only, before a call
`v.m(x)`. -/
def joinedStatements : List Node :=
  [idleClass,
    ⟨.conditional (onLine 4 3 4 (.name "c")) [assigningCall 5 2 "C"] [] (some untypedClause),
      ⟨4, 0, 7, 9, none⟩⟩,
    methodCall 8 0]

/-- A statement `h = lambda: v.m(x)`. -/
def enclosingStatement : Node :=
  onLine 2 0 18 (.assign none [onLine 2 0 1 (.name "h")]
    [onLine 2 4 18 (.lambda [] (methodCall 2 12))])

/-- A function that is decorated with `v.m(x)`. -/
def decoratedFunction : Node :=
  ⟨.definition "f" [] [onLine 4 2 6 .pass] [methodCall 2 1], ⟨2, 0, 4, 6, none⟩⟩

/-- One definition that tells a type is enough if others reach the call as well, and calls in a
function that is an expression or in the decorators of a function update nothing. -/
theorem overlooks_untypedReceiver :
    OverlooksReceiver joinedStatements (methodCall 8 0) (methodCall 8 0) ∧
      OverlooksReceiver [assigningCall 1 0 "g", enclosingStatement] enclosingStatement
        (methodCall 2 12) ∧
      OverlooksReceiver [assigningCall 1 0 "g", decoratedFunction] decoratedFunction
        (methodCall 2 1) := by
  refine ⟨?_, ?_, ?_⟩
  · have clauseRuns : Node.RunsAll untypedClause.body ([assigningCall 7 2 "g"] ++ []) .finished :=
      .cons (.straight trivial) .nil
    have runs : Node.RunsAll joinedStatements
        ([idleClass] ++ ((onLine 4 3 4 (.name "c") :: untypedClause ::
          ([assigningCall 7 2 "g"] ++ [])) ++ ([methodCall 8 0] ++ []))) .finished :=
      .cons (.straight trivial)
        (.cons (.conditionalFails (.otherwise (List.cons_ne_nil _ _) clauseRuns))
          (.cons (.straight trivial) .nil))
    have reaches : (Graph.ofStatements joinedStatements).Reaches
        ([idleClass, onLine 4 3 4 (.name "c"), untypedClause] ++ assigningCall 7 2 "g" :: [])
        (methodCall 8 0) := Graph.reaches_of_runsAll runs
    exact overlooksReceiver_of_spares (by decide +kernel) (methodCall 8 0).self_mem_walk reaches
      fun _ => holds_of_run (SparesReceiver _ _ _) (by decide +kernel)
  · have isLambda : onLine 2 4 18 (.lambda [] (methodCall 2 12)) ∈ enclosingStatement.children := by
      simp [enclosingStatement, onLine, Node.children, Shape.children, Shape.fields, Field.subtrees]
    have isBody : methodCall 2 12 ∈ (onLine 2 4 18 (.lambda [] (methodCall 2 12))).children :=
      List.mem_singleton_self _
    have isInside : methodCall 2 12 ∈ enclosingStatement.walk :=
      Node.walk_subset_of_mem_children isLambda
        (Node.walk_subset_of_mem_children isBody (methodCall 2 12).self_mem_walk)
    exact overlooksReceiver_of_spares (by decide +kernel) isInside
      (reaches_of_straight trivial trivial) fun _ =>
        holds_of_run (SparesReceiver _ _ _) (by decide +kernel)
  · have isDecorator : methodCall 2 1 ∈ decoratedFunction.children := by
      simp [decoratedFunction, Node.children, Shape.children, Shape.fields, Field.subtrees]
    have isInside : methodCall 2 1 ∈ decoratedFunction.walk :=
      Node.walk_subset_of_mem_children isDecorator (methodCall 2 1).self_mem_walk
    exact overlooksReceiver_of_spares (by decide +kernel) isInside
      (reaches_of_straight trivial trivial) fun _ =>
        holds_of_run (SparesReceiver _ _ _) (by decide +kernel)

end Analysis

end FlowAnalysis
