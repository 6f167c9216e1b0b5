import FlowAnalysis.Proofs.Analysis.Learning
import FlowAnalysis.Proofs.Analysis.Places
import FlowAnalysis.Proofs.ControlFlow.Order
import FlowAnalysis.Proofs.Spec.Import

/-!
# What functions are known under a name

Names of functions live in one table, whatever scopes they are bound in. So the specification that
is inferred from a definition stays in the table as long as nothing that is analyzed later binds the
name, and functions in functions count among that.
-/

namespace FlowAnalysis

namespace SymbolTable

variable {table symbols : SymbolTable} {name base : String} {imports : List ImportName}

/-- An import from a module can bind a function to a name. -/
def ImportsAs (module : ModuleSpec) (imported : ImportName) (name : String) : Prop :=
  if imported.path = "*" then ∃ function ∈ module.functions, function.name = name
  else imported.boundAs.getD ((Text.segments imported.path).getLastD "") = name

theorem importable?_congr (same : table.specs = symbols.specs) (path : String) :
    table.importable? path = symbols.importable? path := by
  rw [importable?, importable?, same]

theorem foldl_eq {Item Value : Type} (view : SymbolTable → Value)
    {step : SymbolTable → Item → SymbolTable} {items : List Item}
    (each : ∀ item ∈ items, ∀ table, view (step table item) = view table) (table : SymbolTable) :
    view (items.foldl step table) = view table := by
  induction items generalizing table with
  | nil => rfl
  | cons first rest ih =>
      rcases List.forall_mem_cons.1 each with ⟨sameFirst, sameRest⟩
      exact (ih sameRest _).trans (sameFirst table)

/-! Whatever a table is told, the modules that can be imported stay. -/

theorem specs_importModule (path : String) (boundAs : Option String) (table : SymbolTable) :
    ((table.importModule? path boundAs).getD table).specs = table.specs := by
  rw [importModule?]
  cases table.importable? path <;> rfl

theorem specs_importMember (module : ModuleSpec) (imported : ImportName) (table : SymbolTable) :
    (table.importMember module imported).specs = table.specs := by
  rw [importMember]
  split
  · rfl
  · split <;> rfl

theorem specs_importFrom (base : String) (imports : List ImportName) (table : SymbolTable) :
    ((table.importFrom? base imports).getD table).specs = table.specs := by
  rw [importFrom?]
  cases table.importable? base with
  | none => rfl
  | some module =>
      apply foldl_eq specs
      intro imported _ table
      split
      · rfl
      · exact specs_importMember module imported table

/-! A name that is not bound anew stands for the same function as before. -/

theorem function_bindFunction {bound : String} (differs : bound ≠ name)
    (function : ResolvedFunction) :
    (table.bindFunction bound function).functions.get? name = table.functions.get? name := by
  rw [bindFunction, Dictionary.get?_insert, if_neg differs.symm]

theorem function_importModule (path : String) (boundAs : Option String) (table : SymbolTable) :
    ((table.importModule? path boundAs).getD table).functions.get? name =
      table.functions.get? name := by
  rw [importModule?]
  cases table.importable? path <;> rfl

theorem function_importAll {module : ModuleSpec}
    (spared : ∀ function ∈ module.functions, function.name ≠ name) :
    (table.importAll module).functions.get? name = table.functions.get? name := by
  have notListed : module.lastFunction? name = none := by
    rw [ModuleSpec.lastFunction?, List.find?_eq_none]
    simpa using spared
  rw [function_importAll_eq, notListed, Option.map_none, Option.none_or]

theorem function_importMember {module : ModuleSpec} {imported : ImportName}
    (spared : imported.boundAs.getD ((Text.segments imported.path).getLastD "") ≠ name) :
    (table.importMember module imported).functions.get? name = table.functions.get? name := by
  rw [importMember]
  split
  · rfl
  · split
    · rfl
    · rfl
    · exact function_bindFunction spared _
    · rfl

theorem function_importFrom
    (spared : ∀ module, table.importable? base = some module →
      ∀ imported ∈ imports, ¬ImportsAs module imported name) :
    ((table.importFrom? base imports).getD table).functions.get? name =
      table.functions.get? name := by
  rw [importFrom?]
  cases found : table.importable? base with
  | none => rfl
  | some module =>
      apply foldl_eq fun table => table.functions.get? name
      intro imported isImported table
      have notBound := spared module found imported isImported
      rw [ImportsAs] at notBound
      split
      · next isStar =>
          rw [if_pos isStar] at notBound
          apply function_importAll
          exact fun function isFunction sameName => notBound ⟨function, isFunction, sameName⟩
      · next noStar =>
          rw [if_neg noStar] at notBound
          exact function_importMember notBound

end SymbolTable

namespace Analysis

variable {symbols : SymbolTable} {name : String} {statement : Node}

/-- What a statement binds itself can be the function of a name. -/
def MayBind (symbols : SymbolTable) (name : String) (statement : Node) : Prop :=
  match statement.shape with
  | .definition identifier .. => identifier = name
  | .importFrom base imports => ∃ module, symbols.importable? base = some module ∧
      ∃ imported ∈ imports, SymbolTable.ImportsAs module imported name
  | _ => False

namespace Binds

variable {change : SymbolTable → SymbolTable}

theorem specs_eq (binds : Binds statement change) (table : SymbolTable) :
    (change table).specs = table.specs := by
  cases binds with
  | modules =>
      apply SymbolTable.foldl_eq SymbolTable.specs
      intro imported _ table
      exact SymbolTable.specs_importModule _ _ table
  | members => exact SymbolTable.specs_importFrom _ _ table
  | function => rfl
  | type => rfl

theorem function_eq (binds : Binds statement change) {table : SymbolTable}
    (same : table.specs = symbols.specs) (spared : ¬MayBind symbols name statement) :
    (change table).functions.get? name = table.functions.get? name := by
  cases binds with
  | modules =>
      apply SymbolTable.foldl_eq fun table => table.functions.get? name
      intro imported _ table
      exact SymbolTable.function_importModule _ _ table
  | members isImport =>
      rw [MayBind, isImport] at spared
      apply SymbolTable.function_importFrom
      intro module found imported isImported importsAs
      rw [SymbolTable.importable?_congr same] at found
      exact spared ⟨module, found, imported, isImported, importsAs⟩
  | function isDefinition =>
      rw [MayBind, isDefinition] at spared
      exact SymbolTable.function_bindFunction spared _
  | type => rfl

end Binds

namespace Changes

variable {scope : Node → Prop} {before after : Analyzer}

theorem specs_eq (changes : Changes scope before after) :
    after.symbols.specs = before.symbols.specs := by
  induction changes with
  | refl => rfl
  | tail _ change ih =>
      cases change with
      | bind _ binds => exact (binds.specs_eq _).trans ih
      | keep => exact ih

theorem inferLocalFunctions_eq (changes : Changes scope before after) :
    after.inferLocalFunctions = before.inferLocalFunctions := by
  induction changes with
  | refl => rfl
  | tail _ change ih => cases change <;> exact ih

/-- What is changed on account of statements that do not bind a name leaves its function alone. -/
theorem function_eq (changes : Changes scope before after)
    (same : before.symbols.specs = symbols.specs)
    (spared : ∀ statement, scope statement → ¬MayBind symbols name statement) :
    after.symbols.functions.get? name = before.symbols.functions.get? name := by
  induction changes with
  | refl => rfl
  | tail earlier change ih =>
      cases change with
      | bind inScope binds =>
          have sameBetween := (Changes.specs_eq earlier).trans same
          exact (binds.function_eq sameBetween (spared _ inScope)).trans ih
      | keep => exact ih

/-- What is known was known before, or it was found out on account of a statement of the scope, the
names being understood as they were then. -/
theorem exists_composes (changes : Changes scope before after) {key : String} {found : DefUse}
    (isKnown : after.cache.get? key = some found) :
    before.cache.get? key = some found ∨ ∃ statement between, scope statement ∧
      statement.key = key ∧ Changes scope before between ∧
        Composes between.symbols statement found := by
  induction changes with
  | refl => exact .inl isKnown
  | tail earlier change ih =>
      cases change with
      | bind => exact ih isKnown
      | keep inScope composes =>
          rw [Dictionary.get?_insert] at isKnown
          split at isKnown
          · next sameKey =>
              rcases isKnown with ⟨⟩
              exact .inr ⟨_, _, inScope, sameKey.symm, earlier, composes⟩
          · exact ih isKnown

end Changes

end Analysis

namespace Node

variable {root part label : Node}

theorem mem_labels_nestingAll {nodes : List Node} :
    label ∈ (nestingAll nodes).labels ↔ ∃ node ∈ nodes, label ∈ node.nesting.labels := by
  induction nodes with
  | nil => simp [nestingAll, Forest.labels]
  | cons first rest ih => simp [nestingAll, Forest.labels_append, ih]

theorem Within.eq_of_parts_eq_nil (within : root.Within part) (leaf : root.parts = []) :
    part = root := by
  rcases within.cases_head with rfl | ⟨inner, isPart, -⟩
  · rfl
  · rw [IsPart, leaf] at isPart
    exact absurd isPart List.not_mem_nil

theorem parts_of_module {code : List Node} (isModule : root.shape = .module code) :
    root.parts = code := by
  rw [parts, isModule]

end Node

namespace Analysis

theorem Consulted.within {statement inner : Node} (consulted : Consulted statement inner) :
    statement.Within inner := by
  induction consulted with
  | refl => exact .refl
  | tail _ consults ih => exact ih.trans consults.scope.transGen_isPart.to_reflTransGen

/-! ### Definitions of a module -/

section

variable {definition : Node} {name : String} {params body decorators : List Node}
  {start stop : Analyzer}
  (isDefinition : definition.shape = .definition name params body decorators)

include isDefinition

theorem ofNode_definition : Command.ofNode definition = .place definition := by
  rcases definition with ⟨shape, location⟩
  cases isDefinition
  rfl

theorem labels_definition : definition.nesting.labels = [definition] := by
  rcases definition with ⟨shape, location⟩
  cases isDefinition
  rfl

/-- What the analysis of a definition that is not known yet leaves behind. -/
theorem exists_function_of_run_defUse {running : RefSet} {found : DefUse}
    (unknown : start.cached? definition = none) (infers : start.inferLocalFunctions = true)
    (run : (defUse definition running).run start = .ok (found, stop)) :
    ∃ analysis between, (Analysis.function definition false).run start = .ok (analysis, between) ∧
      (∃ positions : List Nat,
        analysis.spec = { name, updates := positions.map .position }) ∧
      stop.symbols.functions.get? name = some { spec := analysis.spec } := by
  have runWith : ∃ between, (defUseWith defUse definition running).run start = .ok (found, between) ∧
      stop.symbols = between.symbols := by
    rw [defUse_eq, remembered] at run
    rcases exists_of_run_bind run with ⟨_, _, ⟨⟩, run⟩
    rw [unknown] at run
    rcases exists_of_run_bind run with ⟨_, between, ran, ⟨⟩⟩
    exact ⟨between, ran, rfl⟩
  rcases runWith with ⟨last, ran, sameSymbols⟩
  rw [defUseWith] at ran
  rcases exists_of_run_bind ran with ⟨references, last', own, ⟨⟩⟩
  rw [ownReferences, isDefinition] at own
  rcases exists_of_run_bind own with ⟨analysis, between, analyzed, own⟩
  have stays : ∀ id, ∀ inner ∈ (Graph.ofStatements body).statements id,
      Stays (Consulted definition) defUse inner := by
    intro id inner isPlaced
    apply defUse_takes (fun consulted consults => consulted.tail consults)
    exact .single (.body isDefinition isPlaced)
  rcases functionWith_takes isDefinition (fun _ => .refl) stays analyzed with
    ⟨changes, positions, specEq⟩
  refine ⟨analysis, between, analyzed, ⟨positions, specEq⟩, ?_⟩
  rcases exists_of_run_bind own with ⟨_, _, ⟨⟩, own⟩
  rw [changes.inferLocalFunctions_eq, infers, if_pos rfl] at own
  rcases exists_of_run_bind own with ⟨_, _, ⟨⟩, ⟨⟩⟩
  have nameEq : analysis.spec.name = name := congrArg FunctionSpec.name specEq
  rw [sameSymbols]
  exact (Dictionary.get?_insert ..).trans (if_pos nameEq.symm)

end

section

variable {root : Node} {analyzer start : Analyzer} {first second : List Node}

/-- What is in the later parts of a module is unknown while only statements of the earlier parts
have been found out about. -/
theorem unknown_of_learns (partsEq : root.parts = first ++ second)
    (distinct : root.innerPlaces.Nodup)
    (uncached : ∀ location ∈ root.innerPlaces, analyzer.cache.get? location.key = none)
    {statements : List Node} (learns : Learns analyzer statements start)
    (placed : ∀ statement ∈ statements, statement ∈ (Node.nestingAll first).labels)
    {part inner : Node} (isPart : part ∈ second) (within : part.Within inner) :
    start.cached? inner = none := by
  cases isKnown : start.cached? inner with
  | none => rfl
  | some found =>
      exfalso
      rcases learns.changes.exists_composes isKnown with wasKnown | ⟨other, -, ⟨statement,
        isLearned, -, consulted⟩, sameKey, -⟩
      · have isPart : part ∈ root.parts := by
          simp [partsEq, isPart]
        have isPlace := List.mem_flatMap.2 ⟨part, isPart, Node.Within.location_mem_places within⟩
        rw [Node.key, uncached _ isPlace] at wasKnown
        cases wasKnown
      · rcases Node.mem_labels_nestingAll.1 (placed statement isLearned) with
          ⟨child, isChild, isLabel⟩
        have within' := (Node.within_of_mem_nesting isLabel).trans consulted.within
        exact Node.key_ne_of_parts distinct partsEq isChild isPart within' within sameKey

end

/-- A function that is known once its definition has been learned stays known, unless what is
explored later binds the name. -/
theorem lookup_of_changes {definition : Node} {name : String} {function : ResolvedFunction}
    {analyzer stop other : Analyzer} {learned passed : List Node}
    (learnsTurn : Learns analyzer learned stop) (isLearned : definition ∈ learned)
    (isRegistered : stop.symbols.functions.get? name = some function)
    (spared : ∀ statement ∈ passed, statement ≠ definition →
      ∀ inner, Consulted statement inner → ¬MayBind analyzer.symbols name inner)
    (changes : Changes (Explores stop passed) stop other) :
    other.symbols.lookupFunction? name = some function := by
  have isKept : other.symbols.functions.get? name = stop.symbols.functions.get? name := by
    apply changes.function_eq learnsTurn.changes.specs_eq
    rintro inner ⟨statement, isPassed, isUnknown, consulted⟩
    apply spared statement isPassed _ inner consulted
    -- The definition itself is not explored again, so its own body does not matter.
    rintro rfl
    rcases learnsTurn.exists_known isLearned with ⟨_, isKnown⟩
    rw [isUnknown] at isKnown
    cases isKnown
  rw [SymbolTable.lookupFunction?, isKept, isRegistered]

section

variable {root definition : Node} {before after : List Node} {name : String}
  {params body decorators : List Node} {analyzer : Analyzer}
  (isDefinition : definition.shape = .definition name params body decorators)
  (isModule : root.shape = .module (before ++ definition :: after))
  (distinct : root.innerPlaces.Nodup)
  (uncached : ∀ location ∈ root.innerPlaces, analyzer.cache.get? location.key = none)
  (infers : analyzer.inferLocalFunctions = true)
  {earlier later : List Node}
  (listed : (Graph.ofStatements (before ++ definition :: after)).reachableStatements =
    earlier ++ definition :: later)
  (isFirst : definition ∉ earlier)

include isDefinition isModule distinct uncached infers listed isFirst

/-- When the turn of a definition of a module comes, the specification that is inferred from it is
learned. -/
theorem exists_turn_of_definition {passed : List Node} {final : Analyzer}
    (learns : Learns analyzer (earlier ++ definition :: passed) final) :
    ∃ start analysis between stop, Learns analyzer earlier start ∧
      (Analysis.function definition false).run start = .ok (analysis, between) ∧
      (∃ positions : List Nat,
        analysis.spec = { name, updates := positions.map .position }) ∧
      Learns analyzer (earlier ++ [definition]) stop ∧ Learns stop passed final ∧
      stop.symbols.functions.get? name = some { spec := analysis.spec } := by
  have partsEq := Node.parts_of_module isModule
  rcases learns.exists_of_append with ⟨start, learnsEarlier, learnsOn⟩
  have unknown : start.cached? definition = none := by
    apply unknown_of_learns partsEq distinct uncached learnsEarlier _ List.mem_cons_self .refl
    intro statement isEarlier
    exact Graph.mem_labels_of_listed_before (ofNode_definition isDefinition) listed isFirst isEarlier
  rcases learnsOn with _ | ⟨known, -⟩ | ⟨-, ran, learnsOn⟩
  · rw [unknown] at known
    cases known
  rename_i stop running found
  have inferred : start.inferLocalFunctions = true :=
    learnsEarlier.changes.inferLocalFunctions_eq.trans infers
  rcases exists_function_of_run_defUse isDefinition unknown inferred ran with
    ⟨analysis, between, analyzed, onlyPositions, isKnown⟩
  exact ⟨start, analysis, between, stop, learnsEarlier, analyzed, onlyPositions,
    learnsEarlier.append (.find unknown ran (.nil stop)), learnsOn, isKnown⟩

/-- In a module the function that is known under the name of a definition is the one inferred from
it, from when the definition has been analyzed on, unless what is analyzed later binds the name. -/
theorem exists_lookup_of_definition
    (spared : ∀ statement ∈ later, statement ≠ definition →
      ∀ inner, Consulted statement inner → ¬MayBind analyzer.symbols name inner) :
    ∃ result final, (Analysis.module root).run analyzer = .ok (result, final) ∧
      (result.converged = true → ∃ start analysis stop, Learns analyzer earlier start ∧
        (Analysis.function definition false).run start = .ok (analysis, stop) ∧
        ∀ passed rest, later = passed ++ rest → ∃ between,
          Learns analyzer (earlier ++ definition :: passed) between ∧ Learns between rest final ∧
          between.symbols.lookupFunction? name = some { spec := analysis.spec }) := by
  have built : Graph.ofRoot root = .ok (.ofStatements (before ++ definition :: after)) := by
    rw [Graph.ofRoot, isModule]
  rcases exists_run_module (.inl ⟨_, isModule⟩) analyzer with ⟨result, final, run⟩
  refine ⟨result, final, run, fun converged => ?_⟩
  rw [run_module built] at run
  rcases learns_of_graph built run with ⟨front, back, reachableEq, learns, ends⟩
  rw [ends converged, List.append_nil, listed] at reachableEq
  subst reachableEq
  rcases exists_turn_of_definition isDefinition isModule distinct uncached infers listed isFirst
    learns with ⟨start, analysis, last, stop, learnsEarlier, analyzed, -, learnsTurn, learnsLater,
      isKnown⟩
  refine ⟨start, analysis, last, learnsEarlier, analyzed, ?_⟩
  rintro passed rest rfl
  rcases learnsLater.exists_of_append with ⟨between, learnsPassed, learnsRest⟩
  have learnsFront := learnsTurn.append learnsPassed
  rw [List.append_assoc] at learnsFront
  refine ⟨between, learnsFront, learnsRest, ?_⟩
  have isLearned : definition ∈ earlier ++ [definition] := by
    simp
  apply lookup_of_changes learnsTurn isLearned isKnown _ learnsPassed.changes
  exact fun statement isPassed => spared statement (List.mem_append_left _ isPassed)

end

/-- A function that does nothing, `def f(a): pass`. -/
def idleFunction : Node :=
  ⟨.definition "f" [onLine 1 6 7 (.parameter "a" none none false false)] [onLine 2 2 6 .pass] [],
    ⟨1, 0, 2, 6, none⟩⟩

/-- A function with a function in it that extends its parameter, `b += c`. -/
def outerFunction (inner : String) : Node :=
  ⟨.definition "g" [onLine 3 6 7 (.parameter "x" none none false false)]
    [⟨.definition inner [onLine 4 8 9 (.parameter "b" none none false false)]
      [onLine 5 4 10 (.assign (some "+") [onLine 5 4 5 (.name "b")] [onLine 5 9 10 (.name "c")])] [],
      ⟨4, 2, 5, 10, none⟩⟩] [], ⟨3, 0, 5, 10, none⟩⟩

/-- A module of these functions. -/
def nestingModule (inner : String) : Node :=
  ⟨.module [idleFunction, outerFunction inner], ⟨1, 0, 6, 0, none⟩⟩

theorem not_mayBind_outerFunction {symbols : SymbolTable} {inner : Node}
    (consulted : Consulted (outerFunction "h") inner) : ¬MayBind symbols "f" inner := by
  rcases Relation.ReflTransGen.cases_head consulted.within with rfl | ⟨part, isPart, inFunction⟩
  · simp [MayBind, outerFunction]
  rcases List.mem_singleton.1 (isPart : part ∈ [_]) with rfl
  rcases Relation.ReflTransGen.cases_head inFunction with rfl | ⟨part, isPart, inBody⟩
  · simp [MayBind]
  rcases List.mem_singleton.1 (isPart : part ∈ [_]) with rfl
  rw [Node.Within.eq_of_parts_eq_nil inBody rfl]
  exact id

/-- Where the function in the other function has another name, the first function stays known as the
one that it is. -/
theorem lookup_nestingModule : ∃ result final start analysis stop,
    (Analysis.module (nestingModule "h")).run (.ofSpecs []) = .ok (result, final) ∧
      Learns (.ofSpecs []) [] start ∧
      (Analysis.function idleFunction false).run start = .ok (analysis, stop) ∧
      final.symbols.lookupFunction? "f" = some { spec := analysis.spec } := by
  have distinct : (nestingModule "h").innerPlaces.Nodup :=
    Node.innerPlaces_nodup (by decide +kernel)
  have uncached : ∀ location ∈ (nestingModule "h").innerPlaces,
      (Analyzer.ofSpecs []).cache.get? location.key = none := fun _ _ => rfl
  have listed : (Graph.ofStatements ([] ++ idleFunction :: [outerFunction "h"])).reachableStatements =
      [] ++ idleFunction :: [outerFunction "h"] := rfl
  have spared : ∀ statement ∈ [outerFunction "h"], statement ≠ idleFunction →
      ∀ inner, Consulted statement inner → ¬MayBind (Analyzer.ofSpecs []).symbols "f" inner := by
    intro statement isLater _ inner consulted
    rcases List.mem_singleton.1 isLater with rfl
    exact not_mayBind_outerFunction consulted
  have isModule : (nestingModule "h").shape =
      .module ([] ++ idleFunction :: [outerFunction "h"]) := rfl
  rcases exists_lookup_of_definition rfl isModule distinct uncached rfl listed List.not_mem_nil
    spared with ⟨result, final, run, known⟩
  have converged := holds_of_run
    (fun outcome : AnalysisResult × Analyzer => outcome.1.converged = true) (by decide +kernel) run
  rcases known converged with ⟨start, analysis, stop, learns, isAnalysis, kept⟩
  rcases kept [outerFunction "h"] [] rfl with ⟨between, -, learnsNothing, isKnown⟩
  cases learnsNothing
  exact ⟨result, final, start, analysis, stop, run, learns, isAnalysis, isKnown⟩

/-- A function in a function takes the place of a function of the module that has the same name. -/
theorem lookup_nestedNamesake : (nestingModule "f").locations.Nodup ∧
    (Graph.ofStatements [idleFunction, outerFunction "f"]).reachableStatements =
      [idleFunction, outerFunction "f"] ∧
    ∃ result final analysis stop,
      (Analysis.module (nestingModule "f")).run (.ofSpecs []) = .ok (result, final) ∧
      result.converged = true ∧
      (Analysis.function idleFunction false).run (.ofSpecs []) = .ok (analysis, stop) ∧
      final.symbols.lookupFunction? "f" ≠ some { spec := analysis.spec } := by
  refine ⟨by decide +kernel, rfl, ?_⟩
  have isModule : (nestingModule "f").IsRoot := .inl ⟨_, rfl⟩
  have isDefinition : idleFunction.shape = .definition "f" _ _ _ := rfl
  rcases exists_run_module isModule (.ofSpecs []) with ⟨result, final, run⟩
  rcases exists_run_function isDefinition false (.ofSpecs []) with ⟨analysis, stop, run'⟩
  have facts := holds_of_run (fun outcome : AnalysisResult × Analyzer =>
    outcome.1.converged = true ∧ outcome.2.symbols.lookupFunction? "f" =
      some { spec := { name := "f", updates := [.position 1] } }) (by decide +kernel) run
  have facts' := holds_of_run (fun outcome : FunctionAnalysis × Analyzer =>
    outcome.1.spec = { name := "f" }) (by decide +kernel) run'
  refine ⟨result, final, analysis, stop, run, facts.1, run', ?_⟩
  rw [facts.2, facts']
  decide

end Analysis

end FlowAnalysis
