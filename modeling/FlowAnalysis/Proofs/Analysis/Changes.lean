import FlowAnalysis.Proofs.Analysis.Totality

/-!
# What an analysis changes

An analysis changes what its analyzer knows in two ways: it makes names stand for what a statement
binds, and it keeps the definitions and uses of a statement that was not known. `Changes` says so
for a whole analysis, functions in functions included, and lists which statements can be concerned.
What the analysis of a program leaves alone follows by induction on its changes.
-/

namespace FlowAnalysis

namespace Analysis

/-- Finding out about a statement means finding out about others: those in the body of a function or
of a method, and the other members of a class. -/
inductive Consults : Node → Node → Prop where
  | body {function inner : Node} {name : String} {params body decorators : List Node} {id : BlockId}
      (isDefinition : function.shape = .definition name params body decorators)
      (isPlaced : inner ∈ (Graph.ofStatements body).statements id) : Consults function inner
  | method {statement method inner : Node} {name methodName : String}
      {bases members decorators params body methodDecorators : List Node} {id : BlockId}
      (isClass : statement.shape = .classDefinition name bases members decorators)
      (isMember : method ∈ members)
      (isMethod : method.shape = .definition methodName params body methodDecorators)
      (isPlaced : inner ∈ (Graph.ofStatements body).statements id) : Consults statement inner
  | member {statement member : Node} {name : String} {bases members decorators : List Node}
      (isClass : statement.shape = .classDefinition name bases members decorators)
      (isMember : member ∈ members)
      (noMethod : ∀ name params body decorators,
        member.shape ≠ .definition name params body decorators) : Consults statement member

/-- What the analysis of a statement makes names stand for. -/
inductive Binds : Node → (SymbolTable → SymbolTable) → Prop where
  | modules {statement : Node} {names : List ImportName}
      (isImport : statement.shape = .importModules names) :
      Binds statement fun symbols => names.foldl
        (fun symbols name => (symbols.importModule? name.path name.boundAs).getD symbols) symbols
  | members {statement : Node} {base : String} {imports : List ImportName}
      (isImport : statement.shape = .importFrom base imports) :
      Binds statement fun symbols => (symbols.importFrom? base imports).getD symbols
  | function {statement : Node} {params body decorators : List Node} {spec : FunctionSpec}
      (isDefinition : statement.shape = .definition spec.name params body decorators) :
      Binds statement fun symbols => symbols.registerFunction spec
  | type {statement : Node} {name : String} {bases members decorators : List Node}
      (isClass : statement.shape = .classDefinition name bases members decorators)
      (type : TypeSpec) : Binds statement fun symbols => symbols.bindType name type

/-- References update nothing but bare names among some nodes. -/
def UpdatesNames (nodes : List Node) (references : List Reference) : Prop :=
  ∀ reference ∈ references, reference.level = .update →
    ∃ node ∈ nodes, node.shape = .name reference.name ∧ reference.location = node.location

/-- The definitions and uses of a statement that defines neither a function nor a class are those of
its calls, as its names are understood, and others that update nothing but bare names in it. -/
def Composes (symbols : SymbolTable) (statement : Node) (defUse : DefUse) : Prop :=
  opensNamedScope statement = false → ∃ own running,
    UpdatesNames statement.walk own ∧ defUse = .ofReferences
      (own ++ callUpdates symbols running statement ++ declaredDefinitions statement)

/-- A single change, on account of a statement in some scope. -/
inductive Change (scope : Node → Prop) : Analyzer → Analyzer → Prop where
  | bind {analyzer : Analyzer} {statement : Node} {change : SymbolTable → SymbolTable}
      (inScope : scope statement) (binds : Binds statement change) :
      Change scope analyzer (analyzer.withSymbols change)
  | keep {analyzer : Analyzer} {statement : Node} {defUse : DefUse} (inScope : scope statement)
      (composes : Composes analyzer.symbols statement defUse) :
      Change scope analyzer
        { analyzer with cache := analyzer.cache.insert statement.key defUse }

/-- Changes one after the other. -/
abbrev Changes (scope : Node → Prop) : Analyzer → Analyzer → Prop :=
  Relation.ReflTransGen (Change scope)

theorem Changes.mono {scope scope' : Node → Prop} {before after : Analyzer}
    (changes : Changes scope before after) (wider : ∀ statement, scope statement → scope' statement) :
    Changes scope' before after := by
  refine changes.lift id ?_
  rintro _ _ (⟨inScope, binds⟩ | ⟨inScope, composes⟩)
  · exact .bind (wider _ inScope) binds
  · exact .keep (wider _ inScope) composes

/-- A step that succeeds changes its analyzer on account of statements in a scope, and ends as
described. -/
def Takes {Result : Type} (scope : Node → Prop) (step : Analysis Result)
    (post : Result → Analyzer → Prop) : Prop :=
  ∀ ⦃analyzer after : Analyzer⦄ ⦃result : Result⦄, step.run analyzer = .ok (result, after) →
    Changes scope analyzer after ∧ post result after

theorem exists_of_run_bind {First Second : Type} {step : Analysis First}
    {next : First → Analysis Second} {analyzer after : Analyzer} {result : Second}
    (run : (step >>= next).run analyzer = .ok (result, after)) :
    ∃ first between, step.run analyzer = .ok (first, between) ∧
      (next first).run between = .ok (result, after) := by
  rw [StateT.run_bind] at run
  cases ran : step.run analyzer with
  | error failure =>
      rw [ran] at run
      cases run
  | ok outcome =>
      rw [ran] at run
      exact ⟨outcome.1, outcome.2, rfl, run⟩

namespace Takes

variable {First Second : Type} {scope : Node → Prop} {step : Analysis First}
  {next : First → Analysis Second} {post post' : First → Analyzer → Prop}
  {final : Second → Analyzer → Prop}

theorem mono (takes : Takes scope step post)
    (weaker : ∀ result after, post result after → post' result after) : Takes scope step post' := by
  intro analyzer after result run
  exact (takes run).imp_right (weaker result after)

theorem pure {result : First} (ends : ∀ after, post result after) :
    Takes scope (Pure.pure result) post := by
  rintro analyzer _ _ ⟨⟩
  exact ⟨.refl, ends analyzer⟩

theorem done {result : First} : Takes scope (Pure.pure result) fun _ _ => True :=
  pure fun _ => trivial

/-- The second step may rely on what the first one yields. -/
theorem bind {fact : First → Prop} (first : Takes scope step fun result _ => fact result)
    (second : ∀ result, fact result → Takes scope (next result) final) :
    Takes scope (step >>= next) final := by
  intro analyzer after result run
  rcases exists_of_run_bind run with ⟨middle, between, run, run'⟩
  rcases first run with ⟨changes, fact⟩
  rcases second middle fact run' with ⟨changes', ends⟩
  exact ⟨changes.trans changes', ends⟩

theorem andThen (first : Takes scope step post) (second : ∀ result, Takes scope (next result) final) :
    Takes scope (step >>= next) final :=
  bind (first.mono fun _ _ _ => trivial) fun result _ => second result

theorem get {next : Analyzer → Analysis Second}
    (second : ∀ analyzer, Takes scope (next analyzer) final) :
    Takes scope (MonadState.get >>= next) final :=
  fun analyzer _ _ run => second analyzer run

/-- What is computed from the analyzer at the end. -/
theorem getPure {compute : Analyzer → Second} :
    Takes scope (MonadState.get >>= fun analyzer => Pure.pure (compute analyzer)) fun result after =>
      result = compute after := by
  rintro analyzer _ _ ⟨⟩
  exact ⟨.refl, rfl⟩

theorem lift (computation : Except Failure First) :
    Takes scope (liftM computation : Analysis First) fun result _ => computation = .ok result := by
  intro analyzer after result run
  cases computation with
  | error failure => nomatch run
  | ok found =>
      cases run
      exact ⟨.refl, rfl⟩

theorem learn {statement : Node} {change : SymbolTable → SymbolTable} (inScope : scope statement)
    (binds : Binds statement change) : Takes scope (learn change) fun _ _ => True := by
  rintro analyzer _ _ ⟨⟩
  exact ⟨.single (.bind inScope binds), trivial⟩

theorem learnWhen {statement : Node} {change : SymbolTable → SymbolTable} {condition : Prop}
    [Decidable condition] {next : Unit → Analysis Second}
    (inScope : condition → scope statement) (binds : Binds statement change)
    (takes : Takes scope (next ()) final) :
    Takes scope (if condition then Analysis.learn change >>= next else next ()) final := by
  split
  · next holds => exact (learn (inScope holds) binds).andThen fun _ => takes
  · exact takes

end Takes

/-! ### The parts of an analysis -/

section

variable {scope : Node → Prop} {transfer : Transfer} {graph : Graph}

/-- What a transfer changes is on account of a scope. -/
def Stays (scope : Node → Prop) (transfer : Transfer) (statement : Node) : Prop :=
  ∀ running, Takes scope (transfer statement running) fun _ _ => True

theorem runStatements_takes {statements : List Node}
    (stays : ∀ statement ∈ statements, Stays scope transfer statement) (running : DefUse)
    (progress : Progress) :
    Takes scope (runStatements transfer statements running progress) fun _ _ => True := by
  induction statements generalizing running progress with
  | nil => exact .pure fun _ => trivial
  | cons first rest ih =>
      rcases List.forall_mem_cons.1 stays with ⟨staysFirst, staysRest⟩
      exact (staysFirst running.defs).andThen fun _ => ih staysRest _ _

theorem processBlock_takes {id : BlockId}
    (stays : ∀ statement ∈ graph.statements id, Stays scope transfer statement)
    (progress : Progress) :
    Takes scope (processBlock transfer graph id progress) fun _ _ => True :=
  (runStatements_takes stays _ _).andThen fun _ => .pure fun _ => trivial

theorem iterate_takes
    (stays : ∀ id, ∀ statement ∈ graph.statements id, Stays scope transfer statement) (limit : Nat)
    (progress : Progress) : Takes scope (iterate transfer graph limit progress) fun _ _ => True := by
  induction limit generalizing progress with
  | zero => exact .pure fun _ => trivial
  | succ limit ih =>
      rw [iterate]
      split
      · exact .pure fun _ => trivial
      · exact (processBlock_takes (stays _) _).andThen fun next => ih next

theorem ofGraph_takes
    (stays : ∀ id, ∀ statement ∈ graph.statements id, Stays scope transfer statement)
    (initial : RefSet) : Takes scope (ofGraph transfer graph initial) fun _ _ => True := by
  rw [ofGraph]
  refine Takes.get fun analyzer => ?_
  refine (iterate_takes stays _ _).andThen fun _ => ?_
  exact (Takes.lift _).bind fun _ _ => .pure fun _ => trivial

theorem functionWith_takes {function : Node} {name : String} {params body decorators : List Node}
    (isDefinition : function.shape = .definition name params body decorators) {isMethod : Bool}
    (inScope : isMethod = false → scope function)
    (stays : ∀ id, ∀ statement ∈ (Graph.ofStatements body).statements id,
      Stays scope transfer statement) :
    Takes scope (functionWith transfer function isMethod) fun analysis _ =>
      ∃ positions : List Nat, analysis.spec = { name, updates := positions.map .position } := by
  have built : Graph.ofRoot function = .ok (.ofStatements body) := by
    rw [Graph.ofRoot, isDefinition]
  rw [functionWith, isDefinition]
  refine Takes.get fun analyzer => ?_
  have binds : Binds function fun symbols => symbols.registerFunction { name } :=
    .function isDefinition
  refine Takes.learnWhen (fun holds => inScope ?_) binds ?_
  · simpa using (Bool.and_eq_true_iff.1 holds).1
  refine (Takes.lift _).bind fun graph isGraph => ?_
  rw [built] at isGraph
  rcases isGraph with ⟨⟩
  exact (ofGraph_takes stays _).andThen fun _ => .pure fun _ => ⟨_, rfl⟩

theorem memberReferences_takes {statement : Node} {name : String}
    {bases all decorators : List Node}
    (isClass : statement.shape = .classDefinition name bases all decorators)
    (stays : ∀ inner, Consults statement inner → Stays scope transfer inner) {members : List Node}
    (areMembers : members ⊆ all) :
    Takes scope (memberReferences transfer statement members) fun _ _ => True := by
  induction members with
  | nil => exact .pure fun _ => trivial
  | cons member rest ih =>
      rcases List.cons_subset.1 areMembers with ⟨isMember, areMembers⟩
      rw [memberReferences]
      split
      · next isMethod =>
          refine (functionWith_takes isMethod (fun isFunction => absurd isFunction (by decide))
            fun id inner isPlaced => stays inner (.method isClass isMember isMethod isPlaced)).andThen
            fun analysis => ?_
          refine Takes.andThen .done fun _ => ?_
          exact (ih areMembers).andThen fun _ => .pure fun _ => trivial
      · next noMethod =>
          refine (stays member (.member isClass isMember noMethod) .empty).andThen fun _ => ?_
          refine Takes.andThen .done fun _ => ?_
          exact (ih areMembers).andThen fun _ => .pure fun _ => trivial

end

/-! ### Updates that a statement makes itself -/

namespace UpdatesNames

variable {nodes nodes' : List Node} {references references' : List Reference}

theorem append (updates : UpdatesNames nodes references) (updates' : UpdatesNames nodes references') :
    UpdatesNames nodes (references ++ references') := by
  intro reference isMember
  rcases List.mem_append.1 isMember with isMember | isMember
  · exact updates reference isMember
  · exact updates' reference isMember

theorem mono (updates : UpdatesNames nodes references) (wider : nodes ⊆ nodes') :
    UpdatesNames nodes' references := by
  intro reference isMember isUpdate
  rcases updates reference isMember isUpdate with ⟨node, isNode, isName, sameLocation⟩
  exact ⟨node, wider isNode, isName, sameLocation⟩

theorem of_level (others : ∀ reference ∈ references, reference.level ≠ .update) :
    UpdatesNames nodes references :=
  fun reference isMember isUpdate => absurd isUpdate (others reference isMember)

theorem nil : UpdatesNames nodes [] :=
  of_level (by simp)

theorem nameUses (expression statement : Node) :
    UpdatesNames nodes (nameUses expression statement) := by
  apply of_level
  intro reference isUse
  rw [level_of_mem_nameUses isUse]
  decide

theorem nameUses_flatMap (expressions : List Node) (statement : Node) :
    UpdatesNames nodes
      (expressions.flatMap fun expression => FlowAnalysis.nameUses expression statement) := by
  intro reference isMember
  rcases List.mem_flatMap.1 isMember with ⟨expression, -, isUse⟩
  exact nameUses expression statement reference isUse

mutual

theorem targetReferences (statement : Node) (level : Level) (inferred : Option TypeSpec) :
    (target : Node) →
      UpdatesNames target.walk (targetReferences statement level inferred target)
  | target => by
      unfold FlowAnalysis.targetReferences
      split
      · next id location =>
          intro reference isMember _
          rw [List.mem_singleton.1 isMember]
          exact ⟨⟨.name id, location⟩, Node.self_mem_walk _, rfl, rfl⟩
      · exact (targetReferences statement .update none _).mono
          (Node.walk_subset_of_mem_children (by simp [Node.children, Shape.children, Shape.fields,
            Field.subtrees]))
      · exact ((targetReferences statement .update none _).mono
          (Node.walk_subset_of_mem_children (by simp [Node.children, Shape.children, Shape.fields,
            Field.subtrees]))).append (nameUses_flatMap _ statement)
      · next items location =>
          apply (targetListReferences statement level items).mono
          apply Node.flatMap_walk_subset
          simp [Node.children, Shape.children, Shape.fields, Field.subtrees]
      · next items comp location =>
          apply (targetListReferences statement level items).mono
          apply Node.flatMap_walk_subset
          simp [Node.children, Shape.children, Shape.fields, Field.subtrees]
      · exact (targetReferences statement level none _).mono
          (Node.walk_subset_of_mem_children (by simp [Node.children, Shape.children, Shape.fields,
            Field.subtrees]))
      · exact nil

theorem targetListReferences (statement : Node) (level : Level) :
    (targets : List Node) →
      UpdatesNames (targets.flatMap Node.walk) (targetListReferences statement level targets)
  | [] => nil
  | target :: rest =>
      append
        ((targetReferences statement level none target).mono (by simp))
        ((targetListReferences statement level rest).mono (by simp))

end

end UpdatesNames

/-! ### The analysis of a statement -/

section

variable {scope : Node → Prop} {transfer : Transfer} {statement : Node}

theorem updatesNames_assignmentReferences (symbols : SymbolTable) {op : Option String}
    {targets sources : List Node} (isAssigned : statement.shape = .assign op targets sources) :
    UpdatesNames statement.walk (assignmentReferences symbols statement op targets sources) := by
  have assigned : ∀ (level : Level) (targets : List Node) (types : List (Option TypeSpec)),
      UpdatesNames (targets.flatMap Node.walk)
        (assignedReferences statement level targets types) := by
    intro level targets
    induction targets with
    | nil => exact fun _ => .nil
    | cons target rest ih =>
        intro types
        exact ((UpdatesNames.targetReferences statement level _ target).mono (by simp)).append
          ((ih types.tail).mono (by simp))
  refine ((assigned _ targets _).mono ?_).append (.nameUses_flatMap _ statement)
  apply Node.flatMap_walk_subset
  simp [Node.children, isAssigned, Shape.children, Shape.fields, Field.subtrees]

/-- What a statement refers to on its own, apart from functions and classes. -/
def UpdatesOwn (statement : Node) (references : List Reference) : Prop :=
  opensNamedScope statement = false → UpdatesNames statement.walk references

theorem ownReferences_takes (inScope : scope statement)
    (stays : ∀ inner, Consults statement inner → Stays scope transfer inner) :
    Takes scope (ownReferences transfer statement) fun references _ =>
      UpdatesOwn statement references := by
  have onlyDefinitions : ∀ {names : List ImportName}, UpdatesNames statement.walk
      (names.map fun name => statementDefinition .imported name.boundName statement) := by
    intro names
    apply UpdatesNames.of_level
    intro reference isMember
    rcases List.mem_map.1 isMember with ⟨name, -, rfl⟩
    exact nofun
  rw [ownReferences]
  split
  · next isImport =>
      exact (Takes.learn inScope (.modules isImport)).andThen fun _ =>
        .pure fun _ _ => onlyDefinitions
  · next isImport =>
      exact (Takes.learn inScope (.members isImport)).andThen fun _ =>
        .pure fun _ _ => onlyDefinitions
  · next name params body decorators isDefinition =>
      have opens : opensNamedScope statement ≠ false := by
        simp [opensNamedScope, isDefinition]
      refine (functionWith_takes isDefinition (fun _ => inScope)
        fun id inner isPlaced => stays inner (.body isDefinition isPlaced)).bind
        fun analysis inferred => ?_
      rcases inferred with ⟨positions, specEq⟩
      have nameEq : analysis.spec.name = name := congrArg FunctionSpec.name specEq
      subst nameEq
      refine Takes.get fun analyzer => ?_
      refine Takes.learnWhen (fun _ => inScope) (.function isDefinition) ?_
      exact .pure fun _ noScope => absurd noScope opens
  · next name bases body decorators isClass =>
      have opens : opensNamedScope statement ≠ false := by
        simp [opensNamedScope, isClass]
      refine (memberReferences_takes isClass stays (List.Subset.refl _)).andThen fun found => ?_
      refine Takes.get fun analyzer => ?_
      refine Takes.learnWhen (fun _ => inScope) (.type isClass _) ?_
      exact .pure fun _ noScope => absurd noScope opens
  · next isAssigned =>
      exact Takes.get fun analyzer => .pure fun _ _ => updatesNames_assignmentReferences _ isAssigned
  · next targets isDeleted =>
      refine .pure fun _ _ => (UpdatesNames.targetListReferences statement .update targets).mono ?_
      apply Node.flatMap_walk_subset
      simp [Node.children, isDeleted, Shape.children, Shape.fields, Field.subtrees]
  all_goals first
    | exact .pure fun _ _ => .nil
    | exact .pure fun _ _ => .nameUses statement statement

theorem defUseWith_takes (inScope : scope statement)
    (stays : ∀ inner, Consults statement inner → Stays scope transfer inner) (running : RefSet) :
    Takes scope (defUseWith transfer statement running) fun defUse after =>
      Composes after.symbols statement defUse := by
  rw [defUseWith]
  refine (ownReferences_takes inScope stays).bind fun references updates => ?_
  refine Takes.getPure.mono fun defUse after composed noScope => ?_
  refine ⟨references, running, updates noScope, ?_⟩
  rw [composed, noScope]
  rfl

theorem remembered_takes (inScope : scope statement) {running : RefSet}
    (takes : Takes scope (transfer statement running) fun defUse after =>
      Composes after.symbols statement defUse) :
    Takes scope (remembered transfer statement running) fun _ _ => True := by
  intro analyzer after found run
  refine ⟨?_, trivial⟩
  rw [remembered] at run
  rcases exists_of_run_bind run with ⟨_, _, ⟨⟩, run⟩
  split at run
  · cases run
    exact .refl
  · rcases exists_of_run_bind run with ⟨defUse, between, ran, ⟨⟩⟩
    rcases takes ran with ⟨changes, composes⟩
    exact changes.tail (.keep inScope composes)

end

theorem Consults.scope {statement inner : Node} (consults : Consults statement inner) :
    Scope statement inner := by
  cases consults with
  | body isDefinition isPlaced => exact .single (.body isDefinition isPlaced)
  | method isClass isMember isMethod isPlaced =>
      exact .tail (.single (.member isClass isMember)) (.body isMethod isPlaced)
  | member isClass isMember _ => exact .single (.member isClass isMember)

/-- The statements that an analysis finds out about on account of a statement. -/
abbrev Consulted : Node → Node → Prop :=
  Relation.ReflTransGen Consults

/-- The analysis of a statement changes its analyzer on account of the statements that it finds out
about. -/
theorem defUse_takes {scope : Node → Prop}
    (closed : ∀ {statement inner}, scope statement → Consults statement inner → scope inner)
    (statement : Node) (inScope : scope statement) : Stays scope defUse statement := by
  intro running
  rw [defUse_eq]
  apply remembered_takes inScope
  apply defUseWith_takes inScope
  intro inner consults
  exact defUse_takes closed inner (closed inScope consults)
termination_by statement.scopeDepth
decreasing_by exact consults.scope.scopeDepth_lt

theorem changes_of_run_defUse {statement : Node} {running : RefSet} {analyzer after : Analyzer}
    {found : DefUse} (run : (defUse statement running).run analyzer = .ok (found, after)) :
    Changes (Consulted statement) analyzer after :=
  (defUse_takes (fun consulted consults => consulted.tail consults) statement .refl running run).1

end Analysis

end FlowAnalysis
