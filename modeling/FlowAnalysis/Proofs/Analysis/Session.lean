import FlowAnalysis.Proofs.Analysis.Ownership
import FlowAnalysis.Proofs.Analysis.Replay
import FlowAnalysis.Proofs.ControlFlow.Postdominance
import FlowAnalysis.Proofs.Reference.DefUse

/-!
# What steps of an analysis leave behind

An analyzer never forgets or changes what it knows about a statement. Every step of an analysis
succeeds, keeps what is known, and adds only what describes the statement that it is kept for.
`Analysis.Yields` says so together with what a step yields, and it is proved along the structure of
the analysis. A step adds something only for the statements that it looks at: those in the body of a
function, the members of a class, and so on inwards.
-/

namespace FlowAnalysis

namespace Analyzer

/-- Everything that was known is known still. -/
def Keeps (before after : Analyzer) : Prop :=
  ∀ key defUse, before.cache.get? key = some defUse → after.cache.get? key = some defUse

/-- Whatever is known is valid for the key that it is kept for. -/
def Holds (valid : String → DefUse → Prop) (analyzer : Analyzer) : Prop :=
  ∀ key defUse, analyzer.cache.get? key = some defUse → valid key defUse

/-- What is known about a statement belongs to it. -/
def Sound (analyzer : Analyzer) : Prop :=
  analyzer.Holds fun key defUse => defUse.OwnedAt key

theorem Keeps.refl (analyzer : Analyzer) : analyzer.Keeps analyzer :=
  fun _ _ known => known

theorem Keeps.trans {first second third : Analyzer} (keeps : first.Keeps second)
    (keeps' : second.Keeps third) : first.Keeps third :=
  fun key defUse known => keeps' key defUse (keeps key defUse known)

end Analyzer

namespace Analysis

/-- A step of an analysis succeeds, keeps what is known and what is valid, and ends as described. -/
def Yields {Result : Type} (valid : String → DefUse → Prop) (step : Analysis Result)
    (post : Result → Analyzer → Prop) : Prop :=
  ∀ analyzer : Analyzer, analyzer.Holds valid →
    ∃ result after, step.run analyzer = .ok (result, after) ∧ analyzer.Keeps after ∧
      after.Holds valid ∧ post result after

/-- A step that any analyzer takes without harm. -/
abbrev Safe {Result : Type} (valid : String → DefUse → Prop) (step : Analysis Result) : Prop :=
  Yields valid step fun _ _ => True

variable {valid : String → DefUse → Prop} {scope : Node → Prop}

theorem run_bind {First Second : Type} {step : Analysis First} {next : First → Analysis Second}
    {analyzer between : Analyzer} {result : First}
    (run : step.run analyzer = .ok (result, between)) :
    (step >>= next).run analyzer = (next result).run between := by
  rw [StateT.run_bind, run]
  rfl

namespace Yields

variable {First Second : Type} {step : Analysis First} {next : First → Analysis Second}
  {post post' : First → Analyzer → Prop} {final : Second → Analyzer → Prop}

theorem mono (yields : Yields valid step post) (weaker : ∀ result after, post result after →
    post' result after) : Yields valid step post' := by
  intro analyzer holds
  rcases yields analyzer holds with ⟨result, after, run, keeps, holdsAfter, ends⟩
  exact ⟨result, after, run, keeps, holdsAfter, weaker result after ends⟩

theorem safe (yields : Yields valid step post) : Safe valid step :=
  yields.mono fun _ _ _ => trivial

theorem pure {result : First} (ends : ∀ after, post result after) :
    Yields valid (Pure.pure result) post :=
  fun analyzer holds => ⟨result, analyzer, rfl, .refl analyzer, holds, ends analyzer⟩

/-- A step ends in one way only. -/
theorem and (yields : Yields valid step post) (yields' : Yields valid step post') :
    Yields valid step fun result after => post result after ∧ post' result after := by
  intro analyzer holds
  rcases yields analyzer holds with ⟨result, after, run, keeps, holdsAfter, ends⟩
  rcases yields' analyzer holds with ⟨_, _, run', -, -, ends'⟩
  rw [run] at run'
  rcases run' with ⟨⟩
  exact ⟨result, after, run, keeps, holdsAfter, ends, ends'⟩

theorem pureEq {result : First} :
    Yields valid (Pure.pure result : Analysis First) fun found _ => found = result :=
  pure fun _ => rfl

theorem bind {middle : First → Second → Analyzer → Prop} (first : Yields valid step post)
    (second : ∀ result, Yields valid (next result) (middle result))
    (together : ∀ result between second after, post result between → between.Keeps after →
      middle result second after → final second after) :
    Yields valid (step >>= next) final := by
  intro analyzer holds
  rcases first analyzer holds with ⟨result, between, run, keeps, holdsBetween, ends⟩
  rcases second result between holdsBetween with
    ⟨result', after, run', keeps', holdsAfter, ends'⟩
  exact ⟨result', after, (run_bind run).trans run', keeps.trans keeps', holdsAfter,
    together result between result' after ends keeps' ends'⟩

/-- What the second step yields does not depend on how the first one ends. -/
theorem andThen (first : Yields valid step post)
    (second : ∀ result, Yields valid (next result) final) : Yields valid (step >>= next) final :=
  bind first second fun _ _ _ _ _ _ ends => ends

/-- The second step may rely on what the first one yields. -/
theorem bindPure {fact : First → Prop} (first : Yields valid step fun result _ => fact result)
    (second : ∀ result, fact result → Yields valid (next result) final) :
    Yields valid (step >>= next) final := by
  intro analyzer holds
  rcases first analyzer holds with ⟨result, between, run, keeps, holdsBetween, ends⟩
  rcases second result ends between holdsBetween with
    ⟨result', after, run', keeps', holdsAfter, ends'⟩
  exact ⟨result', after, (run_bind run).trans run', keeps.trans keeps', holdsAfter, ends'⟩

theorem get :
    Yields valid (MonadState.get : Analysis Analyzer) fun result after => result = after :=
  fun analyzer holds => ⟨analyzer, analyzer, rfl, .refl analyzer, holds, rfl⟩

theorem lift {computation : Except Failure First} {result : First}
    (computes : computation = .ok result) :
    Yields valid (liftM computation : Analysis First) fun found _ => found = result := by
  subst computes
  exact fun analyzer holds => ⟨result, analyzer, rfl, .refl analyzer, holds, rfl⟩

theorem learn (change : SymbolTable → SymbolTable) : Safe valid (learn change) :=
  fun analyzer holds =>
    ⟨(), analyzer.withSymbols change, rfl, fun _ _ known => known, holds, trivial⟩

theorem learnWhen {condition : Prop} [Decidable condition] (change : SymbolTable → SymbolTable)
    {next : Unit → Analysis Second} (yields : Yields valid (next ()) final) :
    Yields valid (if condition then Analysis.learn change >>= next else next ()) final := by
  split
  · exact (learn change).andThen fun _ => yields
  · exact yields

end Yields

/-! ### The iteration over a graph -/

/-- A transfer finds something out about the statements of a scope, and that stays so. -/
structure Transfers (valid : String → DefUse → Prop) (scope : Node → Prop)
    (finds : Analyzer → Node → DefUse → Prop) (transfer : Transfer) : Prop where
  yields : ∀ {statement}, scope statement → ∀ running,
    Yields valid (transfer statement running) fun defUse after => finds after statement defUse
  stays : ∀ {before after : Analyzer} {statement defUse}, before.Keeps after →
    finds before statement defUse → finds after statement defUse

/-- Statements define and use what an analyzer has found out. -/
def Agrees (finds : Analyzer → Node → DefUse → Prop) (analyzer : Analyzer)
    (known : Node → DefUse) : Prop :=
  ∀ statement defUse, finds analyzer statement defUse → known statement = defUse

/-- A step yields what is computed from the definitions and uses of statements. -/
def Replays {Result : Type} (valid : String → DefUse → Prop)
    (finds : Analyzer → Node → DefUse → Prop) (step : Analysis Result)
    (replayed : (Node → DefUse) → Result) : Prop :=
  Yields valid step fun result after => ∀ known, Agrees finds after known → result = replayed known

theorem exists_controlPairs {root : Node} {graph : Graph} (built : Graph.ofRoot root = .ok graph) :
    ∃ controls, graph.controlPairs = .ok controls := by
  have someExit : graph.exits.isEmpty = false :=
    List.isEmpty_eq_false_iff.2 (Graph.exits_ne_nil built)
  rw [Graph.controlPairs, Graph.controlDependencies, Postdominators.ofGraph, someExit]
  exact ⟨_, rfl⟩

/-- The analysis of a graph ends as the iteration over its blocks does, with control edges added. -/
theorem run_ofGraph {transfer : Transfer} {graph : Graph} {initial : RefSet}
    {analyzer after : Analyzer} {progress : Progress} {controls : List (Node × Node)}
    (found : graph.controlPairs = .ok controls)
    (iterates : (iterate transfer graph analyzer.iterationLimit (.start graph initial)).run analyzer =
      .ok (progress, after)) :
    (ofGraph transfer graph initial).run analyzer = .ok (progress.result controls, after) := by
  have findsControls : (liftM graph.controlPairs : Analysis _).run after =
      .ok (controls, after) := by
    rw [found]
    rfl
  rw [Analysis.ofGraph]
  exact (run_bind rfl).trans ((run_bind iterates).trans (run_bind findsControls))

namespace Transfers

variable {finds : Analyzer → Node → DefUse → Prop} {transfer : Transfer} {graph : Graph}
  {statements : List Node} {id : BlockId}

theorem agrees (transfers : Transfers valid scope finds transfer) {before after : Analyzer}
    {known : Node → DefUse} (keeps : before.Keeps after) (agrees : Agrees finds after known) :
    Agrees finds before known :=
  fun statement defUse found => agrees statement defUse (transfers.stays keeps found)

theorem runStatements (transfers : Transfers valid scope finds transfer)
    (inScope : ∀ statement ∈ statements, scope statement) (running : DefUse) (progress : Progress) :
    Replays valid finds (runStatements transfer statements running progress) fun known =>
      (stateAfter known running statements, recordAll known statements running progress) := by
  induction statements generalizing running progress with
  | nil => exact .pure fun _ _ _ => rfl
  | cons statement rest ih =>
      rcases List.forall_mem_cons.1 inScope with ⟨isInScope, restInScope⟩
      refine (transfers.yields isInScope running.defs).bind
        (fun defUse => ih restInScope _ (progress.record defUse running)) ?_
      intro defUse between result after found keeps replays known agrees
      rw [replays known agrees, ← agrees statement defUse (transfers.stays keeps found)]
      rfl

theorem processBlock (transfers : Transfers valid scope finds transfer)
    (inScope : ∀ statement ∈ graph.statements id, scope statement) (progress : Progress) :
    Replays valid finds (processBlock transfer graph id progress) fun known =>
      replayBlock known graph id progress := by
  refine (transfers.runStatements inScope _ progress).bind (fun _ => .pureEq) ?_
  rintro result between _ after replays keeps rfl known agrees
  rw [replays known (transfers.agrees keeps agrees)]
  rfl

theorem iterate (transfers : Transfers valid scope finds transfer)
    (inScope : ∀ id, ∀ statement ∈ graph.statements id, scope statement) (limit : Nat)
    (progress : Progress) :
    Replays valid finds (iterate transfer graph limit progress) fun known =>
      replay known graph limit progress := by
  induction limit generalizing progress with
  | zero => exact .pure fun _ _ _ => rfl
  | succ limit ih =>
      rcases progress with ⟨_ | ⟨id, pending⟩, states, dataflows, defined, undefinedRefs, iterations⟩
      · exact .pure fun _ _ _ => rfl
      · refine (transfers.processBlock (inScope id) _).bind (fun next => ih next) ?_
        intro next between result after replaysBlock keeps replays known agrees
        rw [replays known agrees, replaysBlock known (transfers.agrees keeps agrees)]
        rfl

/-! All statements of the blocks that are processed are found out about. -/

theorem runStatements_finds (transfers : Transfers valid scope finds transfer)
    (inScope : ∀ statement ∈ statements, scope statement) (running : DefUse) (progress : Progress) :
    Yields valid (Analysis.runStatements transfer statements running progress) fun result after =>
      result.2.pending = progress.pending ∧
        ∀ statement ∈ statements, ∃ defUse, finds after statement defUse := by
  induction statements generalizing running progress with
  | nil => exact .pure fun _ => ⟨rfl, fun _ member => absurd member List.not_mem_nil⟩
  | cons statement rest ih =>
      rcases List.forall_mem_cons.1 inScope with ⟨isInScope, restInScope⟩
      refine (transfers.yields isInScope running.defs).bind
        (fun defUse => ih restInScope _ (progress.record defUse running)) ?_
      rintro defUse between result after found keeps ⟨pendingEq, restFound⟩
      exact ⟨pendingEq, List.forall_mem_cons.2 ⟨⟨defUse, transfers.stays keeps found⟩, restFound⟩⟩

theorem processBlock_finds (transfers : Transfers valid scope finds transfer)
    (inScope : ∀ statement ∈ graph.statements id, scope statement) (progress : Progress) :
    Yields valid (Analysis.processBlock transfer graph id progress) fun next after =>
      progress.pending ⊆ next.pending ∧
        ∀ statement ∈ graph.statements id, ∃ defUse, finds after statement defUse := by
  refine (transfers.runStatements_finds inScope _ progress).bind (fun _ => .pureEq) ?_
  rintro result between _ after ⟨pendingEq, found⟩ keeps rfl
  refine ⟨?_, ?_⟩
  · intro id isPending
    exact Progress.mem_pending_store.2 (.inl (pendingEq ▸ isPending))
  · intro statement member
    rcases found statement member with ⟨defUse, found⟩
    exact ⟨defUse, transfers.stays keeps found⟩

theorem iterate_finds (transfers : Transfers valid scope finds transfer)
    (inScope : ∀ id, ∀ statement ∈ graph.statements id, scope statement) (limit : Nat)
    (progress : Progress) :
    Yields valid (Analysis.iterate transfer graph limit progress) fun last after =>
      last.pending = [] → ∀ id ∈ progress.pending, ∀ statement ∈ graph.statements id,
        ∃ defUse, finds after statement defUse := by
  have none : ∀ {progress : Progress}, progress.pending = [] → ∀ after,
      ∀ id ∈ progress.pending, ∀ statement ∈ graph.statements id,
        ∃ defUse, finds after statement defUse := by
    intro progress nonePending _ id isPending
    rw [nonePending] at isPending
    exact absurd isPending List.not_mem_nil
  induction limit generalizing progress with
  | zero => exact .pure fun after nonePending => none nonePending after
  | succ limit ih =>
      rcases progress with ⟨_ | ⟨id, pending⟩, states, dataflows, defined, undefinedRefs, iterations⟩
      · exact .pure fun after _ => none rfl after
      · refine (transfers.processBlock_finds (inScope id) _).bind (fun next => ih next) ?_
        rintro next between last after ⟨stillPending, found⟩ keeps allFound nonePending
        intro other isPending statement member
        rcases List.mem_cons.1 isPending with rfl | isPending
        · rcases found statement member with ⟨defUse, found⟩
          exact ⟨defUse, transfers.stays keeps found⟩
        · exact allFound nonePending other (stillPending isPending) statement member

/-- The analysis of a graph that is made for a program succeeds. Its result is that of the replay
with some control edges, and if it converges, all statements have been found out about. -/
theorem ofGraph (transfers : Transfers valid scope finds transfer) {root : Node}
    (built : Graph.ofRoot root = .ok graph)
    (inScope : ∀ id, ∀ statement ∈ graph.statements id, scope statement) (initial : RefSet) :
    ∃ controls, graph.controlPairs = .ok controls ∧ ∀ analyzer : Analyzer, analyzer.Holds valid →
      ∃ result after, (ofGraph transfer graph initial).run analyzer = .ok (result, after) ∧
        analyzer.Keeps after ∧ after.Holds valid ∧
        (∀ known, Agrees finds after known →
          result =
            (replay known graph analyzer.iterationLimit (.start graph initial)).result controls) ∧
        (result.converged = true → ∀ statement ∈ graph.reachableStatements,
          ∃ defUse, finds after statement defUse) := by
  rcases exists_controlPairs built with ⟨controls, found⟩
  refine ⟨controls, found, fun analyzer holds => ?_⟩
  have yields := (transfers.iterate inScope analyzer.iterationLimit (.start graph initial)).and
    (transfers.iterate_finds inScope analyzer.iterationLimit (.start graph initial))
  rcases yields analyzer holds with ⟨progress, after, run, keeps, holdsAfter, replays, allFound⟩
  refine ⟨progress.result controls, after, run_ofGraph found run, keeps, holdsAfter, ?_, ?_⟩
  · intro known agrees
    rw [replays known agrees]
  · intro converged statement member
    rcases List.mem_flatMap.1 member with ⟨id, isReachable, inBlock⟩
    exact allFound (List.isEmpty_iff.1 converged) id isReachable statement inBlock

end Transfers

/-! ### Definitions and uses of statements -/

/-- Finding out about a statement can mean finding out about others: the statements in the body of a
function, the members of a class. -/
inductive LooksInto : Node → Node → Prop where
  | body {function statement : Node} {name : String} {params body decorators : List Node}
      {id : BlockId} (isDefinition : function.shape = .definition name params body decorators)
      (isPlaced : statement ∈ (Graph.ofStatements body).statements id) :
      LooksInto function statement
  | member {statement member : Node} {name : String} {bases body decorators : List Node}
      (isClass : statement.shape = .classDefinition name bases body decorators)
      (isMember : member ∈ body) : LooksInto statement member

/-- The definitions that parameters make on entry. -/
def onEntry (params : List Node) : RefSet :=
  .ofList (params.filterMap parameterDefinition?)

/-- What can be found out about a statement. -/
structure Describes (statement : Node) (defUse : DefUse) : Prop where
  references : ∃ references, OwnedBy statement references ∧ defUse = .ofReferences references
  assigned : ∀ op targets sources, statement.shape = .assign op targets sources →
    ∃ symbols symbols' running, defUse = .ofReferences
      (assignmentReferences symbols statement op targets sources ++
        callUpdates symbols' running statement ++ declaredDefinitions statement)

theorem Describes.ownedAt {statement : Node} {defUse : DefUse}
    (describes : Describes statement defUse) : defUse.OwnedAt statement.key := by
  rcases describes.references with ⟨references, owned, rfl⟩
  apply DefUse.ownedAt_ofReferences
  intro reference member
  rw [owned reference member]

theorem ownedBy_definitionUses (definition : Node) (freeUses : RefSet) :
    OwnedBy definition (definitionUses definition freeUses) :=
  .append (.map fun _ _ => rfl) (.nameUses_flatMap _ definition)

theorem ownedBy_assignmentReferences (symbols : SymbolTable) (statement : Node) (op : Option String)
    (targets sources : List Node) :
    OwnedBy statement (assignmentReferences symbols statement op targets sources) := by
  have assigned : ∀ (level : Level) (targets : List Node) (types : List (Option TypeSpec)),
      OwnedBy statement (assignedReferences statement level targets types) := by
    intro level targets
    induction targets with
    | nil => exact fun _ => .nil
    | cons target rest ih =>
        exact fun types => .append (.targetReferences _ _ _ target) (ih types.tail)
  exact .append (assigned _ targets _) (.nameUses_flatMap _ statement)

section

variable {transfer : Transfer}
  (closed : ∀ {statement inner}, scope statement → LooksInto statement inner → scope inner)
  (transferSafe : ∀ {statement}, scope statement → ∀ running,
    Safe valid (transfer statement running))

include closed transferSafe

theorem functionWith_safe {function : Node} {name : String} {params body decorators : List Node}
    (isDefinition : function.shape = .definition name params body decorators)
    (inScope : scope function) (isMethod : Bool) :
    Safe valid (functionWith transfer function isMethod) := by
  have built : Graph.ofRoot function = .ok (Graph.ofStatements body) := by
    rw [Graph.ofRoot, isDefinition]
  have transfers : Transfers valid scope (fun _ _ _ => True) transfer :=
    ⟨transferSafe, fun _ _ => trivial⟩
  have bodyInScope : ∀ id, ∀ statement ∈ (Graph.ofStatements body).statements id,
      scope statement :=
    fun id statement isPlaced => closed inScope (.body isDefinition isPlaced)
  have analyzed : ∀ initial, Safe valid (ofGraph transfer (Graph.ofStatements body) initial) := by
    intro initial analyzer holds
    rcases transfers.ofGraph built bodyInScope initial with ⟨controls, -, succeeds⟩
    rcases succeeds analyzer holds with ⟨result, after, run, keeps, holdsAfter, -, -⟩
    exact ⟨result, after, run, keeps, holdsAfter, trivial⟩
  rw [functionWith, isDefinition]
  refine Yields.get.andThen fun _ => Yields.learnWhen _ ?_
  refine (Yields.lift built).bindPure ?_
  rintro _ rfl
  exact (analyzed _).andThen fun _ => .pure fun _ => trivial

/-- What members of a class refer to is attributed to the class. -/
theorem memberReferences_yields (statement : Node) {members : List Node}
    (inScope : ∀ member ∈ members, scope member) :
    Yields valid (memberReferences transfer statement members) fun result _ =>
      OwnedBy statement result.1 := by
  induction members with
  | nil => exact .pure fun _ => .nil
  | cons member rest ih =>
      rcases List.forall_mem_cons.1 inScope with ⟨isInScope, restInScope⟩
      rw [memberReferences]
      split
      · next isDefinition =>
          refine (functionWith_safe closed transferSafe isDefinition isInScope true).andThen
            fun analysis => ?_
          refine (Yields.pure fun _ => trivial : Safe valid _).andThen fun found => ?_
          refine (ih restInScope).bindPure fun _ owned => Yields.pure fun _ => ?_
          exact .append (.map fun _ _ => rfl) owned
      · refine (transferSafe isInScope .empty).andThen fun defUse => ?_
        refine (Yields.pure fun _ => trivial : Safe valid _).andThen fun found => ?_
        refine (ih restInScope).bindPure fun _ owned => Yields.pure fun _ => ?_
        exact .append (.map fun _ _ => rfl) owned

theorem ownReferences_yields {statement : Node} (inScope : scope statement) :
    Yields valid (ownReferences transfer statement) fun references _ =>
      OwnedBy statement references := by
  rw [ownReferences]
  split
  · exact (Yields.learn _).andThen fun _ => .pure fun _ => .map fun _ _ => rfl
  · exact (Yields.learn _).andThen fun _ => .pure fun _ => .map fun _ _ => rfl
  · next isDefinition =>
      refine (functionWith_safe closed transferSafe isDefinition inScope false).andThen
        fun analysis => ?_
      refine Yields.get.andThen fun _ => Yields.learnWhen _ ?_
      exact .pure fun _ => .cons rfl (ownedBy_definitionUses statement _)
  · next isClass =>
      have membersInScope := fun member isMember =>
        closed inScope (LooksInto.member isClass (isMember : member ∈ _))
      refine (memberReferences_yields closed transferSafe statement membersInScope).bindPure
        fun _ owned => ?_
      refine Yields.get.andThen fun _ => Yields.learnWhen _ ?_
      exact .pure fun _ => .append (.append owned (.nameUses_flatMap _ statement)) (.cons rfl .nil)
  · exact Yields.get.andThen fun _ => .pure fun _ => ownedBy_assignmentReferences _ statement _ _ _
  · exact .pure fun _ => .targetListReferences statement .update _
  all_goals first
    | exact .pure fun _ => .nil
    | exact .pure fun _ => .nameUses statement statement

omit closed transferSafe in
theorem ownReferences_assigned {statement : Node} {op : Option String} {targets sources : List Node}
    (isAssigned : statement.shape = .assign op targets sources) :
    Yields valid (ownReferences transfer statement) fun references _ =>
      ∃ symbols, references = assignmentReferences symbols statement op targets sources := by
  rw [ownReferences, isAssigned]
  exact Yields.get.andThen fun analyzer => .pure fun _ => ⟨analyzer.symbols, rfl⟩

theorem defUseWith_yields {statement : Node} (inScope : scope statement) (running : RefSet) :
    Yields valid (defUseWith transfer statement running) fun defUse _ =>
      Describes statement defUse := by
  have own : Yields valid (ownReferences transfer statement) fun references _ =>
      OwnedBy statement references ∧ ∀ op targets sources,
        statement.shape = .assign op targets sources →
        ∃ symbols, references = assignmentReferences symbols statement op targets sources := by
    have yields := ownReferences_yields closed transferSafe inScope
    by_cases isAssigned : ∃ op targets sources, statement.shape = .assign op targets sources
    · rcases isAssigned with ⟨op, targets, sources, isAssigned⟩
      refine (yields.and (ownReferences_assigned isAssigned)).mono ?_
      rintro references after ⟨owned, assigned⟩
      refine ⟨owned, fun _ _ _ isAssigned' => ?_⟩
      rw [isAssigned] at isAssigned'
      cases isAssigned'
      exact assigned
    · refine yields.mono fun _ _ owned => ⟨owned, fun op targets sources isAssigned' => ?_⟩
      exact absurd ⟨op, targets, sources, isAssigned'⟩ isAssigned
  rw [defUseWith]
  refine own.bindPure fun references facts => ?_
  rcases facts with ⟨owned, assigned⟩
  refine Yields.get.andThen fun analyzer => .pure fun _ => ⟨⟨_, ?_, rfl⟩, ?_⟩
  · have updatesOwned : OwnedBy statement (if opensNamedScope statement then []
        else callUpdates analyzer.symbols running statement) := by
      split
      · exact .nil
      · exact .callUpdates _ _ statement
    exact (owned.append updatesOwned).append (.declaredDefinitions statement)
  · intro op targets sources isAssigned
    rcases assigned op targets sources isAssigned with ⟨symbols, rfl⟩
    have noScope : opensNamedScope statement = false := by
      rw [opensNamedScope, isAssigned]
    rw [noScope]
    exact ⟨symbols, analyzer.symbols, running, rfl⟩

end

/-- Whatever is found out about a statement is kept. -/
theorem remembered_yields {transfer : Transfer} {statement : Node} {running : RefSet}
    (yields : Yields valid (transfer statement running) fun defUse _ =>
      valid statement.key defUse) :
    Yields valid (remembered transfer statement running) fun defUse after =>
      after.cached? statement = some defUse := by
  intro analyzer holds
  rw [remembered]
  cases known : analyzer.cached? statement with
  | some defUse =>
      refine ⟨defUse, analyzer, ?_, .refl analyzer, holds, known⟩
      refine (run_bind rfl).trans ?_
      rw [known]
      rfl
  | none =>
      rcases yields analyzer holds with ⟨defUse, between, run, keeps, holdsBetween, isValid⟩
      refine ⟨defUse, { between with cache := between.cache.insert statement.key defUse }, ?_, ?_, ?_,
        ?_⟩
      · refine (run_bind rfl).trans ?_
        rw [known]
        exact (run_bind run).trans rfl
      · intro key found wasKnown
        have differs : key ≠ statement.key := by
          rintro rfl
          exact absurd (known.symm.trans wasKnown) (by simp)
        rw [Dictionary.get?_insert, if_neg differs]
        exact keeps key found wasKnown
      · intro key found isKnown
        rw [Dictionary.get?_insert] at isKnown
        split at isKnown
        · next isStatement =>
            rw [isStatement, ← Option.some.inj isKnown]
            exact isValid
        · exact holdsBetween key found isKnown
      · exact (Dictionary.get?_insert _ _ _ _).trans (if_pos rfl)

section

variable (closed : ∀ {statement inner}, scope statement → LooksInto statement inner → scope inner)
  (admits : ∀ {statement defUse}, scope statement → Describes statement defUse →
    valid statement.key defUse)

include closed admits

/-- The definitions and uses of a statement can always be found out. -/
theorem defUse_yields (statement : Node) (inScope : scope statement) (running : RefSet) :
    Yields valid (defUse statement running) fun found after =>
      after.cached? statement = some found := by
  rw [defUse]
  apply remembered_yields
  refine (defUseWith_yields closed (fun {inner} isInScope reaching => ?_) inScope running).mono
    fun _ _ describes => admits inScope describes
  split
  · exact (defUse_yields inner isInScope reaching).safe
  · exact .pure fun _ => trivial
termination_by statement.scopeDepth

/-- What the analysis finds out about statements stays known. -/
theorem defUse_transfers :
    Transfers valid scope
      (fun analyzer statement defUse => analyzer.cached? statement = some defUse) defUse :=
  ⟨fun isInScope running => defUse_yields closed admits _ isInScope running,
    fun keeps found => keeps _ _ found⟩

theorem defUse_safe {statement : Node} (inScope : scope statement) (running : RefSet) :
    Safe valid (defUse statement running) :=
  (defUse_yields closed admits statement inScope running).safe

end

end Analysis

/-! ### Analyzers -/

namespace Analyzer

/-- What is known about a statement, or that it has no references. -/
def known (analyzer : Analyzer) (statement : Node) : DefUse :=
  (analyzer.cached? statement).getD .empty

/-- The analyzers that can come up: new ones with any settings, and what becomes of an analyzer when
names are given other meanings, or when a program, a function or a statement is analyzed. -/
inductive Arises : Analyzer → Prop where
  | new (symbols : SymbolTable) (inferLocalFunctions : Bool) (iterationLimit : Nat) :
      Arises { symbols, inferLocalFunctions, iterationLimit }
  | withSymbols {analyzer : Analyzer} (change : SymbolTable → SymbolTable)
      (arises : Arises analyzer) : Arises (analyzer.withSymbols change)
  | graph {analyzer after : Analyzer} {root : Node} {graph : Graph} {initial : RefSet}
      {result : AnalysisResult} (arises : Arises analyzer) (built : Graph.ofRoot root = .ok graph)
      (run : (Analysis.graph graph initial).run analyzer = .ok (result, after)) : Arises after
  | function {analyzer after : Analyzer} {definition : Node} {isMethod : Bool}
      {analysis : FunctionAnalysis} (arises : Arises analyzer)
      (run : (Analysis.function definition isMethod).run analyzer = .ok (analysis, after)) :
      Arises after
  | statement {analyzer after : Analyzer} {statement : Node} {running : RefSet} {found : DefUse}
      (arises : Arises analyzer)
      (run : (Analysis.defUse statement running).run analyzer = .ok (found, after)) : Arises after

theorem Holds.of_yields {valid : String → DefUse → Prop} {Result : Type} {step : Analysis Result}
    {post : Result → Analyzer → Prop} {analyzer after : Analyzer} {result : Result}
    (holds : analyzer.Holds valid) (yields : Analysis.Yields valid step post)
    (run : step.run analyzer = .ok (result, after)) : after.Holds valid := by
  rcases yields analyzer holds with ⟨_, _, run', -, holdsAfter, -⟩
  rw [run] at run'
  rcases run' with ⟨⟩
  exact holdsAfter

section

variable {valid : String → DefUse → Prop} {scope : Node → Prop}
  (closed : ∀ {statement inner}, scope statement → Analysis.LooksInto statement inner → scope inner)
  (admits : ∀ {statement defUse}, scope statement → Analysis.Describes statement defUse →
    valid statement.key defUse)

include closed admits

/-- The analysis of a program succeeds, and if it converges, it is a run over what is known about
the statements afterwards. -/
theorem Holds.exists_run {analyzer : Analyzer} (holds : analyzer.Holds valid) {root : Node}
    {graph : Graph} (built : Graph.ofRoot root = .ok graph)
    (inScope : ∀ id, ∀ statement ∈ graph.statements id, scope statement) (initial : RefSet) :
    ∃ result after, (Analysis.graph graph initial).run analyzer = .ok (result, after) ∧
      analyzer.Keeps after ∧ after.Holds valid ∧ (result.converged = true →
        (∀ statement ∈ graph.reachableStatements,
          after.cached? statement = some (after.known statement)) ∧
        ∃ visits progress controls,
          progress = Analysis.replay after.known graph analyzer.iterationLimit (.start graph initial) ∧
          Analysis.Run after.known graph (.start graph initial) visits progress ∧
          result = progress.result controls) := by
  have transfers := Analysis.defUse_transfers closed admits
  rcases transfers.ofGraph built inScope initial with ⟨controls, -, succeeds⟩
  rcases succeeds analyzer holds with ⟨result, after, run, keeps, holdsAfter, replays, allFound⟩
  refine ⟨result, after, run, keeps, holdsAfter, fun converged => ⟨?_, ?_⟩⟩
  · intro statement member
    rcases allFound converged statement member with ⟨defUse, found⟩
    rw [known, found]
    rfl
  · have agrees : Analysis.Agrees
        (fun analyzer statement defUse => analyzer.cached? statement = some defUse) after
        after.known := by
      intro statement defUse found
      rw [known, found]
      rfl
    have resultEq := replays after.known agrees
    rw [resultEq] at converged
    rcases Analysis.exists_run_replay (List.isEmpty_iff.1 converged) with ⟨visits, isRun⟩
    exact ⟨visits, _, controls, rfl, isRun, resultEq⟩

/-- The analysis of a function succeeds, and if it converges, it is a run over what is known about
the statements of the body afterwards. -/
theorem function_yields {definition : Node} {name : String} {params body decorators : List Node}
    (isDefinition : definition.shape = .definition name params body decorators)
    (inScope : ∀ id, ∀ statement ∈ (Graph.ofStatements body).statements id, scope statement)
    (isMethod : Bool) :
    Analysis.Yields valid (Analysis.function definition isMethod) fun analysis after =>
      analysis.spec.updates =
        (analysis.result.mutatedPositions (if isMethod then 0 else 1) params).map .position ∧
      (analysis.result.converged = true →
        (∀ statement ∈ (Graph.ofStatements body).reachableStatements,
          after.cached? statement = some (after.known statement)) ∧
        ∃ visits progress controls,
          Analysis.Run after.known (.ofStatements body)
            (.start (.ofStatements body) (Analysis.onEntry params)) visits progress ∧
          analysis.result = progress.result controls) := by
  have built : Graph.ofRoot definition = .ok (.ofStatements body) := by
    rw [Graph.ofRoot, isDefinition]
  rw [Analysis.function, Analysis.functionWith, isDefinition]
  refine Analysis.Yields.get.andThen fun _ => Analysis.Yields.learnWhen _ ?_
  refine (Analysis.Yields.lift built).bindPure ?_
  rintro _ rfl
  intro analyzer holds
  rcases holds.exists_run closed admits built inScope (Analysis.onEntry params) with
    ⟨result, after, run, keeps, holdsAfter, converges⟩
  refine ⟨_, after, (Analysis.run_bind run).trans rfl, keeps, holdsAfter, rfl, fun converged => ?_⟩
  rcases converges converged with ⟨allKnown, visits, progress, controls, -, isRun, resultEq⟩
  exact ⟨allKnown, visits, progress, controls, isRun, resultEq⟩

end

theorem Arises.sound {analyzer : Analyzer} (arises : analyzer.Arises) : analyzer.Sound := by
  have transfers : Analysis.Transfers (fun key defUse => defUse.OwnedAt key) (fun _ => True)
      (fun analyzer statement defUse => analyzer.cached? statement = some defUse)
      Analysis.defUse :=
    Analysis.defUse_transfers (fun _ _ => trivial) fun _ describes => describes.ownedAt
  have safe : ∀ {statement}, True → ∀ running, Analysis.Safe (fun key defUse => defUse.OwnedAt key)
      (Analysis.defUse statement running) :=
    fun {statement} _ running => (transfers.yields trivial running).safe
  induction arises with
  | new => exact fun _ _ known => nomatch known
  | withSymbols change _ sound => exact sound
  | graph _ built run sound =>
      rcases transfers.ofGraph built (fun _ _ _ => trivial) _ with ⟨controls, -, succeeds⟩
      rcases succeeds _ sound with ⟨_, _, run', -, soundAfter, -, -⟩
      rw [Analysis.graph, run'] at run
      rcases run with ⟨⟩
      exact soundAfter
  | @function _ _ definition isMethod _ _ run sound =>
      by_cases isDefinition : ∃ name params body decorators,
          definition.shape = .definition name params body decorators
      · rcases isDefinition with ⟨_, _, _, _, isDefinition⟩
        exact sound.of_yields
          (Analysis.functionWith_safe (fun _ _ => trivial) safe isDefinition trivial isMethod) run
      · rw [Analysis.function, Analysis.functionWith] at run
        split at run
        · next isDefinition' => exact absurd ⟨_, _, _, _, isDefinition'⟩ isDefinition
        · nomatch run
  | statement _ run sound => exact sound.of_yields (transfers.yields trivial _) run

theorem Arises.exists_run {analyzer : Analyzer} (arises : analyzer.Arises) {root : Node}
    {graph : Graph} (built : Graph.ofRoot root = .ok graph) (initial : RefSet) :
    ∃ result after, (Analysis.graph graph initial).run analyzer = .ok (result, after) ∧
      after.Sound ∧ (result.converged = true →
        (∀ statement ∈ graph.reachableStatements,
          after.cached? statement = some (after.known statement)) ∧
        ∃ visits progress controls,
          progress = Analysis.replay after.known graph analyzer.iterationLimit (.start graph initial) ∧
          Analysis.Run after.known graph (.start graph initial) visits progress ∧
          result = progress.result controls) := by
  have closed : ∀ {statement inner : Node}, True → Analysis.LooksInto statement inner → True :=
    fun _ _ => trivial
  rcases arises.sound.exists_run closed (fun _ describes => describes.ownedAt) built
      (fun _ _ _ => trivial) initial with ⟨result, after, run, -, sound, converges⟩
  exact ⟨result, after, run, sound, converges⟩

/-- The references of a statement belong to it. -/
theorem Sound.ownedAt_known {analyzer : Analyzer} (sound : analyzer.Sound) (statement : Node) :
    (analyzer.known statement).OwnedAt statement.key := by
  rw [known]
  cases found : analyzer.cached? statement with
  | none =>
      intro level reference isMember
      simp at isMember
  | some defUse => exact sound _ _ found

end Analyzer

end FlowAnalysis
