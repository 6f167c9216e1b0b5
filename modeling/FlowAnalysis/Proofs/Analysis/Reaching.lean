import FlowAnalysis.Proofs.Analysis.InForce
import FlowAnalysis.Proofs.Analysis.Session

/-!
# Bindings that reach

No binding that is in force is missed: a block that is not pending has been processed with states of
its predecessors that they still have, so along every path the bindings in force arrive, and what
they reach is drawn.
-/

namespace FlowAnalysis

namespace Analysis

variable {known : Node → DefUse} {graph : Graph} {initial : RefSet} {level : Level}
  {statements : List Node} {statement : Node} {reference : Reference} {state : DefUse}

/-! ### States that bindings in force are in -/

/-- All references of a state occur somewhere. -/
def Occurring (known : Node → DefUse) (graph : Graph) (initial : RefSet) (state : DefUse) : Prop :=
  ∀ level, ∀ reference ∈ (state.level level).toList, Occurs known graph initial reference

/-- The bindings in force after some statements are in a state, up to their keys. -/
def Arrives (known : Node → DefUse) (initial : RefSet) (level : Level) (state : DefUse)
    (statements : List Node) : Prop :=
  ∀ reference : Reference, reference.HasPlainName →
    InForce known initial level statements reference → reference.key ∈ (state.level level).keys

/-- All keys of a state are those of another. -/
def KeysIn (state other : DefUse) : Prop :=
  ∀ level, (state.level level).keys ⊆ (other.level level).keys

theorem Occurring.update (occurring : Occurring known graph initial state)
    (isReachable : statement ∈ graph.reachableStatements) :
    Occurring known graph initial (state.update (known statement)) := by
  intro level reference isMember
  rcases DefUse.mem_or_binds_of_mem_update isMember with early | ⟨source, -, isBound⟩
  · exact occurring level reference early
  · exact .inr ⟨statement, isReachable, source, isBound⟩

theorem Occurring.stateAfter (occurring : Occurring known graph initial state)
    (areReachable : statements ⊆ graph.reachableStatements) :
    Occurring known graph initial (stateAfter known state statements) := by
  induction statements generalizing state with
  | nil => exact occurring
  | cons first rest ih =>
      exact ih (occurring.update (areReachable List.mem_cons_self))
        (List.subset_of_cons_subset areReachable)

section

variable (plain : ∀ reference, Occurs known graph initial reference → reference.HasPlainName)

include plain

theorem exists_mem_of_arrives (occurring : Occurring known graph initial state)
    (arrives : Arrives known initial level state statements) (hasPlainName : reference.HasPlainName)
    (inForce : InForce known initial level statements reference) :
    ∃ arrived ∈ (state.level level).toList, arrived.key = reference.key ∧
      arrived.name = reference.name := by
  rcases KeyedSet.mem_keys.1 (arrives reference hasPlainName inForce) with
    ⟨arrived, isMember, sameKey⟩
  have arrivedPlain := plain arrived (occurring level arrived isMember)
  exact ⟨arrived, isMember, sameKey,
    (Reference.name_level_eq_of_key_eq arrivedPlain hasPlainName sameKey).1⟩

/-- The effect of a statement on a state is that on the bindings in force. -/
theorem Arrives.update (arrives : Arrives known initial level state statements)
    (occurring : Occurring known graph initial state) :
    Arrives known initial level (state.update (known statement)) (statements ++ [statement]) := by
  intro reference hasPlainName inForce
  rcases inForce.binds_or_of_snoc with binds | ⟨inForce, spared⟩
  · exact DefUse.key_mem_update_of_binds binds
  · rcases exists_mem_of_arrives plain occurring arrives hasPlainName inForce with
      ⟨arrived, isMember, sameKey, sameName⟩
    rw [← sameName] at spared
    have remains := DefUse.mem_update_of_not_rebinds isMember spared
    have keyEq : Keyed.key arrived = reference.key := sameKey
    exact keyEq ▸ KeyedSet.key_mem_keys remains

theorem Arrives.stateAfter {others : List Node}
    (arrives : Arrives known initial level state statements)
    (occurring : Occurring known graph initial state)
    (areReachable : others ⊆ graph.reachableStatements) :
    Arrives known initial level (stateAfter known state others) (statements ++ others) := by
  induction others generalizing state statements with
  | nil =>
      rw [List.append_nil]
      exact arrives
  | cons first rest ih =>
      have isReachable := areReachable List.mem_cons_self
      have later := ih (arrives.update plain occurring) (occurring.update isReachable)
        (List.subset_of_cons_subset areReachable)
      rw [List.append_assoc] at later
      exact later

end

/-! ### The start -/

/-- The state in which some references are bound. -/
def seed (initial : RefSet) : DefUse :=
  DefUse.empty.update { definitions := initial }

theorem binds_initial :
    DefUse.Binds { definitions := initial } level reference ↔
      level ≠ .definition ∧ reference ∈ initial.toList := by
  cases level <;> simp [DefUse.Binds, Level.generatedBy, DefUse.level]

theorem occurring_seed : Occurring known graph initial (seed initial) := by
  intro level reference isMember
  rcases DefUse.mem_or_binds_of_mem_update isMember with absent | binds
  · simp at absent
  · exact .inl (binds_initial.1 binds).2

theorem arrives_seed : Arrives known initial level (seed initial) [] :=
  fun _ _ inForce => DefUse.key_mem_update_of_binds (binds_initial.2 inForce.of_nil)

theorem state_start (wellFormed : graph.WellFormed) (id : BlockId) :
    (Progress.start graph initial).state id =
      if id = graph.entry then seed initial else .empty := by
  have entryLt := wellFormed.entry_lt
  rw [Graph.size] at entryLt
  by_cases isEntry : graph.entry = id
  · subst isEntry
    simp [Progress.state, Progress.start, Graph.size, entryLt, seed]
  · rw [if_neg fun same => isEntry same.symm]
    simp only [Progress.state, Progress.start, List.getElem?_set_ne isEntry, List.getElem?_replicate]
    split <;> rfl

/-! ### Blocks that have been processed -/

/-- A block has been processed with references that cover what its predecessors pass on now. What
they reach in the block has been drawn, and what leaves the block is stored. -/
structure Covers (known : Node → DefUse) (graph : Graph) (initial : RefSet) (progress : Progress)
    (id : BlockId) (arriving : DefUse) : Prop where
  predecessors : ∀ source ∈ graph.predecessors id, KeysIn (progress.state source) arriving
  entry : id = graph.entry → KeysIn (seed initial) arriving
  occurring : Occurring known graph initial arriving
  drawn : ∀ {source target}, Meets known arriving (graph.statements id) source target →
    progress.Draws source target
  stored : KeysIn (stateAfter known arriving (graph.statements id)) (progress.state id)

/-- What holds of the progress whenever a block is about to be processed: every block that is not
pending is covered. -/
structure Covered (known : Node → DefUse) (graph : Graph) (initial : RefSet) (progress : Progress) :
    Prop where
  length : progress.states.length = graph.size
  distinct : progress.pending.Nodup
  pending : progress.pending ⊆ graph.reachable
  occurring : ∀ id, Occurring known graph initial (progress.state id)
  entry : graph.entry ∈ progress.pending → KeysIn (seed initial) (progress.state graph.entry)
  covers : ∀ id ∈ graph.reachable, id ∉ progress.pending →
    ∃ arriving, Covers known graph initial progress id arriving
  separated : progress.Separated

theorem covered_start (wellFormed : graph.WellFormed) :
    Covered known graph initial (.start graph initial) where
  length := by simp [Progress.start]
  distinct := Search.nodup_reached _ _ _
  pending := List.Subset.refl _
  occurring := by
    intro id
    rw [state_start wellFormed]
    split
    · exact occurring_seed
    · intro level reference isMember
      simp at isMember
  entry := by
    intro _ level
    rw [state_start wellFormed, if_pos rfl]
    exact List.Subset.refl _
  covers := fun id isReachable notPending => absurd isReachable notPending
  separated := fun _ isDefined => absurd isDefined List.not_mem_nil

theorem statements_subset_reachableStatements {id : BlockId} (isReachable : id ∈ graph.reachable) :
    graph.statements id ⊆ graph.reachableStatements :=
  fun _ member => List.mem_flatMap.2 ⟨id, isReachable, member⟩

theorem occurring_arriving {progress : Progress}
    (occurring : ∀ id, Occurring known graph initial (progress.state id)) (id : BlockId) :
    Occurring known graph initial (progress.arriving graph id) := by
  intro level reference isMember
  rcases mem_arriving isMember with stored | ⟨source, -, passedOn⟩
  · exact occurring id level reference stored
  · exact occurring source level reference passedOn

section

variable {progress : Progress} {id : BlockId}

/-- Where a block is not pending after another one has been processed, what flows into it is what it
was before. -/
theorem state_replayBlock_of_not_pending {other source : BlockId}
    (inRange : id < progress.states.length) (isSource : source ∈ graph.predecessors other)
    (notPending : other ∉ (replayBlock known graph id progress).pending) :
    (replayBlock known graph id progress).state source = progress.state source := by
  rw [state_replayBlock inRange, if_neg]
  rintro ⟨rfl, changed⟩
  have edge := Graph.mem_successors.2 (Graph.mem_predecessors.1 isSource)
  exact notPending (mem_pending_replayBlock.2 (.inr ⟨changed, edge⟩))

/-- A block that has been processed is covered, unless it passes something new on to itself. -/
theorem covers_replayBlock (inRange : id < progress.states.length)
    (occurring : ∀ id, Occurring known graph initial (progress.state id))
    (entry : id = graph.entry → KeysIn (seed initial) (progress.state id))
    (notPending : id ∉ (replayBlock known graph id progress).pending) :
    Covers known graph initial (replayBlock known graph id progress) id
      (progress.arriving graph id) where
  predecessors := by
    intro source isSource level key isKey
    rw [state_replayBlock_of_not_pending inRange isSource notPending] at isKey
    exact keys_arriving.2 (.inr ⟨source, isSource, isKey⟩)
  entry := fun isEntry level key isKey => keys_arriving.2 (.inl (entry isEntry level isKey))
  occurring := occurring_arriving occurring id
  drawn := Meets.draws_replayBlock
  stored := by
    intro level key isKey
    have inRecorded : id < (recordAll known (graph.statements id) (progress.arriving graph id)
        progress).states.length := by rwa [states_recordAll]
    exact (Progress.keys_state_store inRecorded level key).2 isKey

/-- Processing a block leaves others covered, unless it passes something new on to them. -/
theorem Covers.replayBlock {other : BlockId} {arriving : DefUse}
    (covers : Covers known graph initial progress other arriving)
    (inRange : id < progress.states.length) (differs : other ≠ id)
    (notPending : other ∉ (replayBlock known graph id progress).pending) :
    Covers known graph initial (replayBlock known graph id progress) other arriving where
  predecessors := by
    intro source isSource level key isKey
    rw [state_replayBlock_of_not_pending inRange isSource notPending] at isKey
    exact covers.predecessors source isSource level isKey
  entry := covers.entry
  occurring := covers.occurring
  drawn := fun meets => (covers.drawn meets).mono extends_replayBlock
  stored := by
    intro level
    rw [state_replayBlock inRange, if_neg fun changed => differs changed.1]
    exact covers.stored level

theorem Covered.replayBlock (covered : Covered known graph initial progress)
    (wellFormed : graph.WellFormed) {pending : List BlockId}
    (isPending : progress.pending = id :: pending) :
    Covered known graph initial
      (replayBlock known graph id
        { progress with pending, iterations := progress.iterations + 1 }) := by
  have distinct := covered.distinct
  rw [isPending, List.nodup_cons] at distinct
  have isReachable : id ∈ graph.reachable :=
    covered.pending (isPending ▸ List.mem_cons_self)
  have inRange : id < progress.states.length := by
    rw [covered.length]
    exact wellFormed.lt_size_of_mem_reachable isReachable
  generalize poppedEq : { progress with pending, iterations := progress.iterations + 1 } = popped
  have sameState : popped.state = progress.state := by rw [← poppedEq]; rfl
  have samePending : popped.pending = pending := by rw [← poppedEq]
  have inRange' : id < popped.states.length := by rw [← poppedEq]; exact inRange
  have occurring : ∀ other, Occurring known graph initial (popped.state other) :=
    sameState ▸ covered.occurring
  refine ⟨?_, ?_, ?_, ?_, ?_, ?_, ?_⟩
  · rw [Analysis.replayBlock, Progress.length_states_store, states_recordAll, ← poppedEq]
    exact covered.length
  · apply Progress.nodup_pending_store
    rw [pending_recordAll, samePending]
    exact distinct.2
  · intro other isPendingLater
    rcases mem_pending_replayBlock.1 isPendingLater with early | ⟨-, edge⟩
    · exact covered.pending (isPending ▸ List.mem_cons_of_mem _ (samePending ▸ early))
    · exact wellFormed.mem_reachable_of_successor isReachable edge
  · intro other
    rw [state_replayBlock inRange']
    split
    · exact (occurring_arriving occurring id).stateAfter
        (statements_subset_reachableStatements isReachable)
    · exact occurring other
  · intro entryPending
    rcases mem_pending_replayBlock.1 entryPending with early | ⟨-, edge⟩
    · rw [samePending] at early
      have notEntry : graph.entry ≠ id := by
        rintro rfl
        exact distinct.1 early
      rw [state_replayBlock inRange', if_neg fun changed => notEntry changed.1, sameState]
      exact covered.entry (isPending ▸ List.mem_cons_of_mem _ early)
    · exact absurd rfl (wellFormed.target_ne_entry _ (Graph.mem_successors.1 edge))
  · intro other otherReachable notPending
    by_cases isProcessed : other = id
    · subst isProcessed
      have entry : other = graph.entry → KeysIn (seed initial) (popped.state other) := by
        rintro rfl
        rw [sameState]
        exact covered.entry (isPending ▸ List.mem_cons_self)
      exact ⟨_, covers_replayBlock inRange' occurring entry notPending⟩
    · have wasNotPending : other ∉ progress.pending := by
        rw [isPending, List.mem_cons, not_or]
        exact ⟨isProcessed, fun early =>
          notPending (mem_pending_replayBlock.2 (.inl (samePending ▸ early)))⟩
      rcases covered.covers other otherReachable wasNotPending with ⟨arriving, covers⟩
      have stays : Covers known graph initial popped other arriving := by
        rw [← poppedEq]
        exact { covers with }
      exact ⟨arriving, stays.replayBlock inRange' isProcessed notPending⟩
  · apply separated_replayBlock
    rw [← poppedEq]
    exact covered.separated

end

/-- At the end of a run all blocks are covered. -/
theorem Run.covered {visits : List BlockId} {last : Progress} (wellFormed : graph.WellFormed)
    (run : Run known graph (.start graph initial) visits last) :
    Covered known graph initial last ∧ last.pending = [] :=
  run.induction (motive := fun _ progress => Covered known graph initial progress)
    (fun _ _ _ _ isPending covered => covered.replayBlock wellFormed isPending) []
    (covered_start wellFormed)

/-! ### Paths -/

section

variable (plain : ∀ reference, Occurs known graph initial reference → reference.HasPlainName)
  {progress : Progress}

include plain

/-- When no block is pending, the bindings in force along a path arrive at its last block. -/
theorem Covered.arrives (covered : Covered known graph initial progress)
    (wellFormed : graph.WellFormed) (nonePending : progress.pending = []) {blocks : List BlockId}
    {id : BlockId} (path : graph.Path graph.entry (blocks ++ [id]) id) {arriving : DefUse}
    (covers : Covers known graph initial progress id arriving) (level : Level) :
    Arrives known initial level arriving (graph.trace blocks) := by
  induction blocks using List.reverseRecOn generalizing id arriving with
  | nil =>
      have isEntry : id = graph.entry := by
        cases path with
        | single => rfl
        | step _ rest => exact absurd rest.source_mem List.not_mem_nil
      intro reference hasPlainName inForce
      exact covers.entry isEntry level (arrives_seed reference hasPlainName inForce)
  | append_singleton blocks last ih =>
      rcases path.exists_last_edge (by simp) with ⟨blocks', last', blocksEq, toLast, edge⟩
      rcases List.append_inj' blocksEq rfl with ⟨rfl, lastEq⟩
      rcases List.singleton_inj.1 lastEq with rfl
      have isReachable := wellFormed.mem_reachable_iff.2 ⟨_, toLast⟩
      rcases covered.covers last isReachable (nonePending ▸ List.not_mem_nil) with
        ⟨arrivingLast, coversLast⟩
      have arrives := (ih toLast coversLast).stateAfter plain coversLast.occurring
        (statements_subset_reachableStatements isReachable)
      have isSource := Graph.mem_predecessors.2 (Graph.mem_successors.1 edge)
      intro reference hasPlainName inForce
      rw [Graph.trace_append, Graph.trace_cons, Graph.trace_nil, List.append_nil] at inForce
      exact covers.predecessors last isSource level
        (coversLast.stored level (arrives reference hasPlainName inForce))

/-- A binding in force along a path reaches the statement that the path meets next, and it is
drawn. -/
theorem Covered.draws (covered : Covered known graph initial progress)
    (wellFormed : graph.WellFormed) (nonePending : progress.pending = []) {blocks : List BlockId}
    {last : BlockId} (path : graph.Path graph.entry blocks last) {earlier later : List Node}
    (traceEq : graph.trace blocks = earlier ++ statement :: later) {target : Reference}
    (inForce : InForce known initial level earlier reference)
    (isTarget : target ∈ ((known statement).level level).toList)
    (sameName : reference.name = target.name) :
    ∃ source, source.key = reference.key ∧ Occurs known graph initial source ∧
      progress.Draws source target := by
  rcases Graph.exists_of_trace_eq traceEq with
    ⟨before, id, after, front, back, rfl, statementsEq, rfl⟩
  have toBlock := path.split.1
  have isReachable := wellFormed.mem_reachable_iff.2 ⟨_, toBlock⟩
  rcases covered.covers id isReachable (nonePending ▸ List.not_mem_nil) with ⟨arriving, covers⟩
  have allReachable := statements_subset_reachableStatements isReachable
  have frontReachable : front ⊆ graph.reachableStatements := by
    rw [statementsEq] at allReachable
    exact List.Subset.trans (List.subset_append_left _ _) allReachable
  have arrives :=
    (covered.arrives plain wellFormed nonePending toBlock covers level).stateAfter plain
      covers.occurring frontReachable
  have occurs : Occurs known graph initial reference := by
    apply inForce.occurs
    intro other isEarlier
    rcases List.mem_append.1 isEarlier with inTrace | inFront
    · rcases List.mem_flatMap.1 inTrace with ⟨block, blockMem, isStatement⟩
      have blockReachable := wellFormed.mem_reachable_of_mem toBlock wellFormed.entry_mem_reachable
        (List.mem_append_left _ blockMem)
      exact statements_subset_reachableStatements blockReachable isStatement
    · exact frontReachable inFront
  have occurring := covers.occurring.stateAfter frontReachable
  rcases exists_mem_of_arrives plain occurring arrives (plain reference occurs) inForce with
    ⟨source, isSource, sameKey, sourceName⟩
  refine ⟨source, sameKey, occurring level source isSource, covers.drawn ?_⟩
  rw [statementsEq]
  exact .intro (DefUse.mem_reachingPairs.2 ⟨level, isTarget, isSource, sourceName.trans sameName⟩)

end

theorem Progress.exists_flow_of_draws {progress : Progress} {source target : Reference}
    (draws : progress.Draws source target) (sourcePlain : '>' ∉ source.owner.key.toList)
    (targetPlain : '>' ∉ target.owner.key.toList) :
    ∃ flow ∈ progress.dataflows.toList,
      flow.source.key = source.owner.key ∧ flow.target.key = target.owner.key := by
  rcases KeyedSet.mem_keys.1 (KeyedSet.contains_iff.1 draws.1) with ⟨flow, isFlow, sameKey⟩
  exact ⟨flow, isFlow, Dataflow.ends_eq_of_key_eq sourcePlain targetPlain sameKey⟩

theorem Progress.mem_result {progress : Progress} {controls : List (Node × Node)} {flow : Dataflow}
    (isDrawn : flow ∈ progress.dataflows.toList) :
    flow ∈ (progress.result controls).dataflows.toList :=
  KeyedSet.mem_extend_of_mem isDrawn

/-- The analysis of a program from any initial references succeeds, and if it converges, it misses
no binding: whenever a binding is in force on a path where the path meets a statement, what the
statement needs of that name is not undefined, and there is an edge to the statement from a holder
of the binding, unless the keys of their locations contain the end of an arrow. Then there is at
least an edge with the same key. -/
theorem exists_graph_flow_between {analyzer : Analyzer} (arises : analyzer.Arises) {root : Node}
    {graph : Graph} (built : Graph.ofRoot root = .ok graph) (initial : RefSet) :
    ∃ result after, (Analysis.graph graph initial).run analyzer = .ok (result, after) ∧
      (result.converged = true →
        (∀ statement ∈ graph.reachableStatements,
          after.cached? statement = some (after.known statement)) ∧
        ((∀ reference, Occurs after.known graph initial reference → reference.HasPlainName) →
          ∀ {blocks last earlier statement later}, graph.Path graph.entry blocks last →
          graph.trace blocks = earlier ++ statement :: later →
          ∀ {level reference target}, InForce after.known initial level earlier reference →
          target ∈ ((after.known statement).level level).toList →
          reference.name = target.name →
          result.undefinedRefs.contains target = false ∧ target.owner.key = statement.key ∧
          ∃ source, source.key = reference.key ∧
            (source ∈ initial.toList ∨
              ∃ holder ∈ graph.reachableStatements, source.owner.key = holder.key ∧
                ∃ level, source ∈ ((after.known holder).level level).toList) ∧
            result.dataflows.contains (.between source target) = true ∧
            ('>' ∉ source.owner.key.toList → '>' ∉ statement.key.toList →
              ∃ flow ∈ result.dataflows.toList,
                flow.source.key = source.owner.key ∧ flow.target.key = statement.key))) := by
  have wellFormed := (Graph.ofRoot_laidOut built).wellFormed
  rcases arises.exists_run built initial with ⟨result, after, run, sound, converges⟩
  refine ⟨result, after, run, fun converged => ?_⟩
  rcases converges converged with ⟨allKnown, visits, progress, controls, -, isRun, rfl⟩
  refine ⟨allKnown, ?_⟩
  intro plain blocks last earlier statement later path traceEq level reference target inForce
    isTarget sameName
  rcases isRun.covered wellFormed with ⟨covered, nonePending⟩
  rcases covered.draws plain wellFormed nonePending path traceEq inForce isTarget sameName with
    ⟨source, sameKey, occurs, draws⟩
  have isOwned : target.owner.key = statement.key :=
    (sound.ownedAt_known statement level target isTarget).2
  refine ⟨?_, isOwned, source, sameKey, ?_, ?_, fun sourcePlain statementPlain => ?_⟩
  · rw [← Bool.not_eq_true, KeyedSet.contains_iff]
    exact covered.separated _ draws.2
  · rcases occurs with isInitial | ⟨holder, holderMem, holderLevel, isHeld⟩
    · exact .inl isInitial
    · have owned := sound.ownedAt_known holder holderLevel source isHeld
      exact .inr ⟨holder, holderMem, owned.2, holderLevel, isHeld⟩
  · have drawn := KeyedSet.contains_iff.1 draws.1
    exact KeyedSet.contains_iff.2 (KeyedSet.mem_keys_extend.2 (.inl drawn))
  · rw [← isOwned] at statementPlain
    rcases Progress.exists_flow_of_draws draws sourcePlain statementPlain with
      ⟨flow, isFlow, sourceEq, targetEq⟩
    exact ⟨flow, Progress.mem_result isFlow, sourceEq, targetEq.trans isOwned⟩

/-- What evaluation shows of a run holds of its result. -/
theorem holds_of_run {Result : Type} {run : Except Failure Result} {result : Result}
    (property : Result → Prop) [DecidablePred property]
    (check : (match run with
      | .error _ => false
      | .ok result => decide (property result)) = true)
    (runs : run = .ok result) : property result := by
  rw [runs] at check
  exact of_decide_eq_true check

/-- A node that takes up some columns of a line. -/
def onLine (line start stop : Nat) (shape : Shape Node) : Node :=
  ⟨shape, ⟨line, start, line, stop, none⟩⟩

/-- The condition of a loop. -/
def loopCondition : Node :=
  onLine 1 6 7 (.name "c")

/-- A statement at the start of a loop that reads a name. -/
def loopReader : Node :=
  onLine 2 2 7 (.assign none [onLine 2 2 3 (.name "y")] [onLine 2 6 7 (.name "x")])

/-- A statement at the end of a loop that binds the name. -/
def loopWriter : Node :=
  onLine 3 2 7 (.assign none [onLine 3 2 3 (.name "x")] [onLine 3 6 7 (.name "c")])

/-- A loop in which a binding reaches a statement before it. -/
def loopStatements : List Node :=
  [⟨.whileLoop loopCondition [loopReader, loopWriter] [], ⟨1, 0, 3, 7, none⟩⟩]

/-- The binding at the end of the loop reaches the statement at its start one round later. -/
theorem flow_between_loopStatements : ∃ result after,
    (Analysis.graph (.ofStatements loopStatements) .empty).run (.ofSpecs []) =
      .ok (result, after) ∧
    ∃ source target, source.key = "x:DEFINITION@3:2-3:3" ∧ target.key = "x:USE@2:6-2:7" ∧
      result.undefinedRefs.contains target = false ∧
      result.dataflows.contains (.between source target) = true ∧
      ∃ flow ∈ result.dataflows.toList,
        flow.source.key = "3:2-3:7" ∧ flow.target.key = "2:2-2:7" := by
  have built : Graph.ofRoot ⟨.module loopStatements, ⟨1, 0, 3, 7, none⟩⟩ =
      .ok (.ofStatements loopStatements) := rfl
  rcases exists_graph_flow_between (.new (.ofSpecs []) true 10000) built .empty with
    ⟨result, after, run, reports⟩
  have facts := holds_of_run
    (fun outcome : AnalysisResult × Analyzer => outcome.1.converged = true ∧
      (∀ statement ∈ (Graph.ofStatements loopStatements).reachableStatements,
        ∀ level ∈ Level.all, ∀ reference ∈ ((outcome.2.known statement).level level).toList,
          ':' ∉ reference.name.toList) ∧
      (∃ reference ∈ (outcome.2.known loopWriter).definitions.toList,
        reference.key = "x:DEFINITION@3:2-3:3" ∧ reference.name = "x") ∧
      (∀ statement ∈ (Graph.ofStatements loopStatements).reachableStatements,
        ∀ level ∈ Level.all, ∀ reference ∈ ((outcome.2.known statement).level level).toList,
          reference.key = "x:DEFINITION@3:2-3:3" → reference.owner.key = "3:2-3:7") ∧
      (∃ reference ∈ (outcome.2.known loopReader).uses.toList,
        reference.key = "x:USE@2:6-2:7" ∧ reference.name = "x") ∧
      ∀ level ∈ Level.all, ∀ reference ∈ ((outcome.2.known loopCondition).level level).toList,
        reference.name ≠ "x") (by decide +kernel) run
  rcases facts with ⟨converged, plain, ⟨reference, isBound, referenceKey, referenceName⟩, isOwned,
    ⟨target, isTarget, targetKey, targetName⟩, spared⟩
  have path : (Graph.ofStatements loopStatements).Path 1 [1, 2, 4, 2, 4] 4 :=
    .step (by decide) (.step (by decide) (.step (by decide) (.step (by decide) (.single 4))))
  have traceEq : (Graph.ofStatements loopStatements).trace [1, 2, 4, 2, 4] =
      ([loopCondition, loopReader] ++ loopWriter :: [loopCondition]) ++ loopReader :: [loopWriter] :=
    rfl
  have inForce : InForce after.known .empty .use
      ([loopCondition, loopReader] ++ loopWriter :: [loopCondition]) reference := by
    refine .bound ⟨.definition, by decide, isBound⟩ ?_
    rintro later isLater ⟨rebound, ⟨source, -, isMember⟩, sameName⟩
    rcases List.mem_singleton.1 isLater with rfl
    exact spared source source.mem_all rebound isMember (sameName.trans referenceName)
  have occursPlain : ∀ reference,
      Occurs after.known (.ofStatements loopStatements) .empty reference →
      reference.HasPlainName := by
    rintro reference (absent | ⟨statement, isReachable, level, isMember⟩)
    · exact absurd absent List.not_mem_nil
    · exact plain statement isReachable level level.mem_all reference isMember
  have isUse : target ∈ ((after.known loopReader).level .use).toList := isTarget
  rcases (reports converged).2 occursPlain path traceEq inForce isUse
      (referenceName.trans targetName.symm) with
    ⟨defined, -, source, sourceKey, held, drawn, flows⟩
  have sourceKey := sourceKey.trans referenceKey
  have owner : source.owner.key = "3:2-3:7" := by
    rcases held with absent | ⟨holder, isReachable, -, level, isHeld⟩
    · exact absurd absent List.not_mem_nil
    · exact isOwned holder isReachable level level.mem_all source isHeld sourceKey
  rw [owner] at flows
  exact ⟨result, after, run, source, target, sourceKey, targetKey, defined, drawn,
    flows (by decide) (by decide)⟩

/-- A statement that binds a name to a value. -/
def assigning (line : Nat) (name : String) (value : Shape Node) : Node :=
  onLine line 0 5 (.assign none [onLine line 0 1 (.name name)] [onLine line 4 5 value])

/-- The same assignment in another file. -/
def inFile (path : String) : Node → Node
  | ⟨.assign op [⟨target, targetLocation⟩] [⟨value, valueLocation⟩], location⟩ =>
      ⟨.assign op [⟨target, targetLocation.withPath path⟩] [⟨value, valueLocation.withPath path⟩],
        location.withPath path⟩
  | statement => statement

/-- A statement that binds a name. -/
def hiddenWriter : Node :=
  assigning 1 "x" (.name "c")

/-- A statement that reads the name, in a file whose name looks like an edge. -/
def hiddenReader : Node :=
  inFile "p:3:0-3:5->q" (assigning 2 "y" (.name "x"))

/-- Statements in front of them, with an edge that has the key of the edge between them. -/
def hidingStatements : List Node :=
  [inFile "1:0-1:5->p" (assigning 3 "a" (.name "c")), inFile "q" (assigning 2 "y" (.name "a"))]

def hiddenStatements : List Node :=
  hidingStatements ++ [hiddenWriter, hiddenReader]

/-- A binding is in force where a path meets a statement that needs it, and yet there is no edge to
that statement. -/
theorem hides_flow_of_hiddenStatements : ∃ result after,
    (Analysis.graph (.ofStatements hiddenStatements) .empty).run (.ofSpecs []) =
      .ok (result, after) ∧ result.converged = true ∧
    (∀ reference, Occurs after.known (.ofStatements hiddenStatements) .empty reference →
      reference.HasPlainName) ∧
    (Graph.ofStatements hiddenStatements).Path 1 [1] 1 ∧
    (Graph.ofStatements hiddenStatements).trace [1] =
      (hidingStatements ++ [hiddenWriter]) ++ [hiddenReader] ∧
    (∃ reference target,
      InForce after.known .empty .use (hidingStatements ++ [hiddenWriter]) reference ∧
        target ∈ (after.known hiddenReader).uses.toList ∧ reference.name = target.name) ∧
    ∀ flow ∈ result.dataflows.toList, flow.target.key ≠ hiddenReader.key := by
  have arises : (Analyzer.ofSpecs []).Arises := .new (.ofSpecs []) true 10000
  have built : Graph.ofRoot ⟨.module hiddenStatements, ⟨1, 0, 3, 5, none⟩⟩ =
      .ok (.ofStatements hiddenStatements) := rfl
  rcases arises.exists_run built .empty with ⟨result, after, run, -, -⟩
  have facts := holds_of_run
    (fun outcome : AnalysisResult × Analyzer => outcome.1.converged = true ∧
      (∀ statement ∈ hiddenStatements, ∀ level ∈ Level.all,
        ∀ reference ∈ ((outcome.2.known statement).level level).toList,
          ':' ∉ reference.name.toList) ∧
      (∃ reference ∈ (outcome.2.known hiddenWriter).definitions.toList,
        ∃ target ∈ (outcome.2.known hiddenReader).uses.toList, reference.name = target.name) ∧
      ∀ flow ∈ outcome.1.dataflows.toList, flow.target.key ≠ hiddenReader.key)
    (by decide +kernel) run
  rcases facts with ⟨converged, plain, ⟨reference, isBound, target, isUse, sameName⟩, noEdge⟩
  have onlyStatements : (Graph.ofStatements hiddenStatements).reachableStatements =
      hiddenStatements := rfl
  have inForce : InForce after.known .empty .use (hidingStatements ++ [hiddenWriter]) reference :=
    .bound ⟨.definition, by decide, isBound⟩ (List.forall_mem_nil _)
  refine ⟨result, after, run, converged, ?_, .single 1, rfl, ⟨reference, target, inForce, isUse,
    sameName⟩, noEdge⟩
  rintro reference (absent | ⟨statement, isReachable, level, isMember⟩)
  · exact absurd absent List.not_mem_nil
  · rw [onlyStatements] at isReachable
    exact plain statement isReachable level level.mem_all reference isMember

end Analysis

end FlowAnalysis
