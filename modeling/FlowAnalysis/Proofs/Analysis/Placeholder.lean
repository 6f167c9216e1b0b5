import FlowAnalysis.Proofs.Analysis.CallSites

/-!
# Functions that are analyzed on request

While the body of a function is analyzed, the name of the function stands for a placeholder, a
function that mutates nothing. Analyzing a definition as a statement puts what is inferred in its
place. Analyzing the function on request does not: the name stands for the placeholder afterwards,
whatever was known before, and later calls of the name update nothing.
-/

namespace FlowAnalysis

namespace Analysis

/-- What a function stands for while its own body is analyzed: a function that mutates nothing. -/
def placeholder (name : String) : ResolvedFunction :=
  { spec := { name } }

/-- What is found out about on account of the body of a function. -/
def InBody (body : List Node) (inner : Node) : Prop :=
  ∃ id, ∃ statement ∈ (Graph.ofStatements body).statements id, Consulted statement inner

theorem InBody.consults {body : List Node} {inner other : Node} (inBody : InBody body inner)
    (consults : Consults inner other) : InBody body other := by
  rcases inBody with ⟨id, statement, isPlaced, consulted⟩
  exact ⟨id, statement, isPlaced, consulted.tail consults⟩

theorem InBody.exists_within {body : List Node} {inner : Node} (inBody : InBody body inner) :
    ∃ node ∈ body, node.Within inner := by
  rcases inBody with ⟨id, statement, isPlaced, consulted⟩
  rcases Graph.exists_within_of_mem_statements isPlaced with ⟨node, isMember, within⟩
  exact ⟨node, isMember, within.trans consulted.within⟩

/-- The analyzer that the body of a function is analyzed with. -/
def entering (analyzer : Analyzer) (name : String) : Analyzer :=
  analyzer.withSymbols fun symbols => symbols.registerFunction { name }

/-! ### Calls that are answered by a specification -/

/-- Wherever a call of a name is found out about from now on, it updates the bare names that it
passes at the positions that a specification lists, and nothing else. -/
def AnswersCalls (analyzer : Analyzer) (name : String) (spec : FunctionSpec) : Prop :=
  ∀ {scope : Node → Prop} {later after : Analyzer} {statement : Node} {running : RefSet}
    {found : DefUse}, Changes scope analyzer later →
    (∀ inner, scope inner → ¬MayBind analyzer.symbols name inner) →
    later.cached? statement = none → (defUse statement running).run later = .ok (found, after) →
    opensNamedScope statement = false → (∀ id, statement.Mentions id → ':' ∉ id.toList) →
    ∀ {call func args}, call ∈ statement.walkScope → call.shape = .call func args →
      func.shape = .name name → call.StandsAlone statement → ∀ passed,
        (∃ reference ∈ found.updates.toList,
          reference.name = passed ∧ reference.location = call.location) ↔
        ∃ index argument, args[index]? = some argument ∧ argument.actual.nameId? = some passed ∧
          .position (index + 1) ∈ spec.updates

/-- Only functions and classes make an analysis find out about others. -/
theorem Consulted.eq_of_noScope {statement inner : Node} (consulted : Consulted statement inner)
    (noScope : opensNamedScope statement = false) : inner = statement := by
  rcases consulted.cases_head with rfl | ⟨other, consults, -⟩
  · rfl
  · exfalso
    cases consults <;> simp_all [opensNamedScope]

/-- A statement that a call is in binds no function. -/
theorem not_mayBind_of_call {symbols : SymbolTable} {name : String} {statement call func : Node}
    {args : List (Argument Node)} (noScope : opensNamedScope statement = false)
    (inScope : call ∈ statement.walkScope) (isCall : call.shape = .call func args) :
    ¬MayBind symbols name statement := by
  intro mayBind
  rw [MayBind] at mayBind
  split at mayBind
  · next isDefinition =>
      rw [opensNamedScope, isDefinition] at noScope
      cases noScope
  · next isImport =>
      have leaf : statement.children = [] := by
        simp [Node.children, isImport, Shape.children, Shape.fields, Field.subtrees]
      rw [(Node.mem_walkScope_of_leaf leaf).1 inScope, isImport] at isCall
      cases isCall
  · exact mayBind

/-- What is found out about a statement that was not known is what it refers to on its own, the
updates of its calls unless it defines a function or a class, and what is declared in it. -/
theorem eq_ofReferences_of_run_defUse {statement : Node} {running : RefSet}
    {analyzer after : Analyzer} {found : DefUse} (unknown : analyzer.cached? statement = none)
    (run : (defUse statement running).run analyzer = .ok (found, after)) :
    ∃ own between, (ownReferences defUse statement).run analyzer = .ok (own, between) ∧
      found = .ofReferences (own ++
        (if opensNamedScope statement then [] else callUpdates after.symbols running statement) ++
        declaredDefinitions statement) := by
  rw [defUse_eq, remembered] at run
  rcases exists_of_run_bind run with ⟨_, _, ⟨⟩, run⟩
  rw [unknown] at run
  rcases exists_of_run_bind run with ⟨found', between, ran, ⟨⟩⟩
  rw [defUseWith] at ran
  rcases exists_of_run_bind ran with ⟨own, _, refers, ran⟩
  rcases exists_of_run_bind ran with ⟨_, _, ⟨⟩, ⟨⟩⟩
  exact ⟨own, _, refers, rfl⟩

theorem exists_own_of_run_defUse {statement : Node} {running : RefSet} {analyzer after : Analyzer}
    {found : DefUse} (unknown : analyzer.cached? statement = none)
    (run : (defUse statement running).run analyzer = .ok (found, after)) :
    ∃ own between, (ownReferences defUse statement).run analyzer = .ok (own, between) ∧
      UpdatesOwn statement own ∧ (opensNamedScope statement = false → found = .ofReferences
        (own ++ callUpdates after.symbols running statement ++ declaredDefinitions statement)) := by
  rcases eq_ofReferences_of_run_defUse unknown run with ⟨own, between, refers, composed⟩
  have stays : ∀ inner, Consults statement inner → Stays (Consulted statement) defUse inner := by
    intro inner consults
    exact defUse_takes (fun consulted consults => consulted.tail consults) inner (.single consults)
  refine ⟨own, between, refers, (ownReferences_takes .refl stays refers).2, fun noScope => ?_⟩
  rw [composed, noScope]
  rfl

theorem composes_of_run_defUse {statement : Node} {running : RefSet} {analyzer after : Analyzer}
    {found : DefUse} (unknown : analyzer.cached? statement = none)
    (run : (defUse statement running).run analyzer = .ok (found, after)) :
    Composes after.symbols statement found := by
  intro noScope
  rcases exists_own_of_run_defUse unknown run with ⟨own, between, -, updates, composed⟩
  exact ⟨own, running, updates noScope, composed noScope⟩

/-- Calls of a name are answered by the specification that the name stands for. -/
theorem answersCalls_of_lookup {analyzer : Analyzer} {name : String} {spec : FunctionSpec}
    {positions : List Nat} (specEq : spec = { name, updates := positions.map .position })
    (isKnown : analyzer.symbols.functions.get? name = some { spec }) :
    AnswersCalls analyzer name spec := by
  intro scope later after statement running found changes spared unknown run noScope plain call func
    args inScope isCall isName alone passed
  have composes := composes_of_run_defUse unknown run
  have changes' := changes_of_run_defUse run
  have isKept : after.symbols.functions.get? name = some { spec } := by
    rw [changes'.function_eq changes.specs_eq, changes.function_eq rfl spared, isKnown]
    intro inner consulted
    rw [consulted.eq_of_noScope noScope]
    exact not_mayBind_of_call noScope inScope isCall
  have isKnown' : after.symbols.lookupFunction? name = some { spec } := by
    rw [SymbolTable.lookupFunction?, isKept]
  rcases composes.exists_update_iff noScope plain inScope isCall alone with ⟨reaching, updates_iff⟩
  rw [updates_iff, mem_mutatedVariables_iff isName isKnown']
  simp only [mem_positions_iff specEq]

/-! ### Analyses of a function -/

/-- The analysis of a statement of a body changes what the body makes it change. -/
theorem stays_of_mem_statements {body : List Node} {id : BlockId} {statement : Node}
    (isPlaced : statement ∈ (Graph.ofStatements body).statements id) :
    Stays (InBody body) defUse statement :=
  defUse_takes InBody.consults statement ⟨id, statement, isPlaced, .refl⟩

section

variable {definition : Node} {name : String} {params body decorators : List Node}
  {analyzer after : Analyzer} {analysis : FunctionAnalysis}
  (isDefinition : definition.shape = .definition name params body decorators)
  (infers : analyzer.inferLocalFunctions = true)

include isDefinition infers

/-- The analysis of a function is that of its body, which starts with the placeholder. -/
theorem run_graph_of_run_function
    (run : (Analysis.function definition false).run analyzer = .ok (analysis, after)) :
    (Analysis.graph (.ofStatements body) (onEntry params)).run (entering analyzer name) =
        .ok (analysis.result, after) ∧
      analysis.spec =
        { name, updates := (analysis.result.mutatedPositions 1 params).map .position } := by
  have built : Graph.ofRoot definition = .ok (.ofStatements body) := by
    rw [Graph.ofRoot, isDefinition]
  rw [Analysis.function, functionWith, isDefinition] at run
  rcases exists_of_run_bind run with ⟨_, _, ⟨⟩, run⟩
  rw [infers, Bool.not_false, Bool.and_self] at run
  dsimp only at run
  rw [if_pos rfl] at run
  rcases exists_of_run_bind run with ⟨_, _, ⟨⟩, run⟩
  rcases exists_of_run_bind run with ⟨graph, between, isGraph, run⟩
  rw [built] at isGraph
  rcases isGraph with ⟨⟩
  rcases exists_of_run_bind run with ⟨result, last, ran, ⟨⟩⟩
  exact ⟨ran, rfl⟩

/-- After the placeholder the analysis of a function changes what its body makes it change. -/
theorem changes_of_run_function
    (run : (Analysis.function definition false).run analyzer = .ok (analysis, after)) :
    Changes (InBody body) (entering analyzer name) after := by
  have ran := (run_graph_of_run_function isDefinition infers run).1
  exact (ofGraph_takes (fun _ _ isPlaced => stays_of_mem_statements isPlaced) _ ran).1

variable (spared : ∀ inner, InBody body inner → ¬MayBind analyzer.symbols name inner)

omit isDefinition infers in
include spared in
/-- As long as only what the body makes change is changed, the name stands for the placeholder. -/
theorem function_eq_placeholder {other : Analyzer}
    (changes : Changes (InBody body) (entering analyzer name) other) :
    other.symbols.functions.get? name = some (placeholder name) := by
  have same : (entering analyzer name).symbols.specs = analyzer.symbols.specs := rfl
  rw [changes.function_eq same spared]
  exact (Dictionary.get?_insert ..).trans (if_pos rfl)

include spared

/-- When a function has been analyzed on request, its name stands for the placeholder. So it stands
for what has been inferred or for what it stood for before only if nothing is mutated or nothing has
been known, and later calls update nothing. When its definition has been analyzed as a statement,
the name stands for what has been inferred, and later calls update what that says. -/
theorem exists_lookup_of_request :
    ∃ analysis after, (Analysis.function definition false).run analyzer = .ok (analysis, after) ∧
      (functionSpec definition).run analyzer = .ok (analysis.spec, after) ∧
      after.symbols.lookupFunction? name = some (placeholder name) ∧
      ((after.symbols.lookupFunction? name = some { spec := analysis.spec } ∨
          after.symbols.lookupFunction? name = analyzer.symbols.lookupFunction? name) ↔
        analysis.spec.updates = [] ∨
          analyzer.symbols.lookupFunction? name = some (placeholder name)) ∧
      AnswersCalls after name { name } ∧
      ∀ running, analyzer.cached? definition = none → ∃ found final,
        (defUse definition running).run analyzer = .ok (found, final) ∧
        final.symbols.lookupFunction? name = some { spec := analysis.spec } ∧
        AnswersCalls final name analysis.spec := by
  rcases exists_run_function isDefinition false analyzer with ⟨analysis, after, run⟩
  have specEq := (run_graph_of_run_function isDefinition infers run).2
  have isPlaceholder :=
    function_eq_placeholder spared (changes_of_run_function isDefinition infers run)
  have isKnown : after.symbols.lookupFunction? name = some (placeholder name) := by
    rw [SymbolTable.lookupFunction?, isPlaceholder]
  refine ⟨analysis, after, run, (run_bind run).trans rfl, isKnown, ?_, ?_, ?_⟩
  · rw [isKnown]
    constructor
    · rintro (isInferred | isOld)
      · left
        exact (congrArg (fun function => function.spec.updates) (Option.some.inj isInferred)).symm
      · exact .inr isOld.symm
    · rintro (mutatesNothing | isOld)
      · left
        rw [specEq] at mutatesNothing
        rw [specEq, placeholder]
        simpa using mutatesNothing
      · exact .inr isOld.symm
  · have noPositions : ({ name } : FunctionSpec) =
        { name, updates := ([] : List Nat).map .position } := rfl
    apply answersCalls_of_lookup noPositions
    exact isPlaceholder
  · intro running unknown
    rcases safe_defUse definition running analyzer fun _ _ _ => trivial with
      ⟨found, final, ran, -, -, -⟩
    rcases exists_function_of_run_defUse isDefinition unknown infers ran with
      ⟨analysis', between, run', -, isRegistered⟩
    rw [run] at run'
    rcases run' with ⟨⟩
    refine ⟨found, final, ran, ?_, answersCalls_of_lookup specEq isRegistered⟩
    rw [SymbolTable.lookupFunction?, isRegistered]

end

theorem definition_extendingFunction :
    extendingFunction.shape = .definition "f" twoParams extendingFunction.parts [] := by
  simp [extendingFunction, Node.parts]

theorem spared_extendingFunction {symbols : SymbolTable} {inner : Node}
    (inBody : InBody extendingFunction.parts inner) : ¬MayBind symbols "f" inner := by
  rcases inBody.exists_within with ⟨node, isMember, within⟩
  rcases List.mem_singleton.1 (isMember : node ∈ [_]) with rfl
  rw [Node.Within.eq_of_parts_eq_nil within rfl]
  exact id

/-- A call of a function updates its first argument if the definition of the function has been
analyzed as a statement, and nothing if the function has been analyzed on request. -/
theorem updates_afterRequest : ∃ analysis requested found defined,
    (Analysis.function extendingFunction false).run (.ofSpecs []) = .ok (analysis, requested) ∧
      requested.symbols.lookupFunction? "f" = some (placeholder "f") ∧
      (defUse extendingFunction .empty).run (.ofSpecs []) = .ok (found, defined) ∧
      defined.symbols.lookupFunction? "f" = some { spec := extendingSpec } ∧
      ∃ calling final, (defUse callInPlace .empty).run defined = .ok (calling, final) ∧
        ∃ reference ∈ calling.updates.toList,
          reference.name = "v" ∧ reference.location = callInPlace.location := by
  have spared : ∀ inner, InBody extendingFunction.parts inner →
      ¬MayBind (Analyzer.ofSpecs []).symbols "f" inner :=
    fun _ inBody => spared_extendingFunction inBody
  rcases exists_lookup_of_request definition_extendingFunction rfl spared with
    ⟨analysis, requested, run, -, isPlaceholder, -, -, defines⟩
  rcases defines .empty rfl with ⟨found, defined, run', isInferred, answers⟩
  have facts := holds_of_run (fun outcome : DefUse × Analyzer =>
    (outcome.2.cached? callInPlace).isNone = true ∧
      outcome.2.symbols.lookupFunction? "f" = some { spec := extendingSpec })
    (by decide +kernel) run'
  have specEq : extendingSpec = analysis.spec :=
    congrArg ResolvedFunction.spec (Option.some.inj (facts.2.symm.trans isInferred))
  rcases safe_defUse callInPlace .empty defined fun _ _ _ => trivial with ⟨calling, final, ran, -⟩
  refine ⟨analysis, requested, found, defined, run, isPlaceholder, run', facts.2, calling, final,
    ran, ?_⟩
  have alone : callInPlace.StandsAlone callInPlace :=
    Node.standsAlone_of_nodup (by decide +kernel) callInPlace.self_mem_walk
  have updates_iff := answers (.refl : Changes (fun _ => False) defined defined)
    (fun _ => False.elim) (Option.isNone_iff_eq_none.1 facts.1) ran rfl
    (Node.plain_of_walk (by decide +kernel)) List.mem_cons_self rfl rfl alone "v"
  exact updates_iff.2 ⟨0, bareArgument 2 "v" none, rfl, rfl, by simp [← specEq, extendingSpec]⟩

/-- A function of a module is forgotten when it is analyzed on request: its name stands neither for
what is inferred nor for what it stood for before, and later calls update nothing. -/
theorem forgets_onRequest : ∃ result known analysis after calling final,
    (Analysis.module ⟨.module [extendingFunction], ⟨1, 0, 3, 0, none⟩⟩).run (.ofSpecs []) =
        .ok (result, known) ∧
      known.inferLocalFunctions = true ∧
      known.symbols.lookupFunction? "f" = some { spec := extendingSpec } ∧
      (Analysis.function extendingFunction false).run known = .ok (analysis, after) ∧
      analysis.spec = extendingSpec ∧
      after.symbols.lookupFunction? "f" ≠ some { spec := analysis.spec } ∧
      after.symbols.lookupFunction? "f" ≠ known.symbols.lookupFunction? "f" ∧
      (defUse callInPlace .empty).run after = .ok (calling, final) ∧
      .position 1 ∈ analysis.spec.updates ∧ calling.updates.toList.isEmpty = true := by
  have isRoot : (⟨.module [extendingFunction], ⟨1, 0, 3, 0, none⟩⟩ : Node).IsRoot := .inl ⟨_, rfl⟩
  rcases exists_run_module isRoot (.ofSpecs []) with ⟨result, known, run⟩
  rcases exists_run_function (rfl : extendingFunction.shape = .definition "f" _ _ _) false known
    with ⟨analysis, after, run'⟩
  rcases safe_defUse callInPlace .empty after fun _ _ _ => trivial with ⟨calling, final, ran, -⟩
  have together : (do
      let _ ← Analysis.module ⟨.module [extendingFunction], ⟨1, 0, 3, 0, none⟩⟩
      let known ← get
      let analysis ← Analysis.function extendingFunction false
      let after ← get
      let calling ← defUse callInPlace .empty
      return (known, analysis, after, calling) : Analysis _).run (.ofSpecs []) =
      .ok ((known, analysis, after, calling), final) :=
    (run_bind run).trans ((run_bind rfl).trans ((run_bind run').trans ((run_bind rfl).trans
      ((run_bind ran).trans rfl))))
  have facts := holds_of_run (fun ((known, analysis, after, calling), _) =>
    known.inferLocalFunctions = true ∧
      known.symbols.lookupFunction? "f" = some { spec := extendingSpec } ∧
      analysis.spec = extendingSpec ∧
      after.symbols.lookupFunction? "f" = some (placeholder "f") ∧
      calling.updates.toList.isEmpty = true) (by decide +kernel) together
  rcases facts with ⟨infers, isKnown, specEq, isPlaceholder, noUpdate⟩
  refine ⟨result, known, analysis, after, calling, final, run, infers, isKnown, run', specEq, ?_,
    ?_, ran, ?_, noUpdate⟩
  · rw [isPlaceholder, specEq]
    decide
  · rw [isPlaceholder, isKnown]
    decide
  · rw [specEq]
    decide

end Analysis

end FlowAnalysis
