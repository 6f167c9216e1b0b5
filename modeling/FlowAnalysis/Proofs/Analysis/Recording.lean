import FlowAnalysis.Proofs.Analysis.Reaching

/-!
# What edges carry

An edge is drawn when a statement is recorded, and it keeps the references that are paired first.
A definition that a statement can read is one that it can mutate as well, as mutations end less than
they are ended by. So an edge from a definition to a statement that mutates its name carries the
mutation, whatever else the statement does with the name.
-/

namespace FlowAnalysis

namespace Analysis

variable {known : Node → DefUse} {graph : Graph} {initial : RefSet} {level : Level}
  {statements : List Node} {statement : Node} {running other : DefUse} {flow : Dataflow}

/-! ### Properties of running states -/

/-- What holds of all running states, as it holds at the start and is kept by all that is done to
them. -/
structure Kept (known : Node → DefUse) (graph : Graph) (initial : RefSet) (holds : DefUse → Prop) :
    Prop where
  empty : holds .empty
  seed : holds (seed initial)
  union : ∀ {running other}, holds running → holds other → holds (running.union other)
  update : ∀ {running statement}, statement ∈ graph.reachableStatements → holds running →
    holds (running.update (known statement))

/-- An edge is drawn where a statement is recorded. -/
def Recorded (known : Node → DefUse) (graph : Graph) (holds : DefUse → Prop) (flow : Dataflow) :
    Prop :=
  ∃ statement ∈ graph.reachableStatements, ∃ running, holds running ∧
    flow ∈ ((known statement).flowsFrom running).toList

namespace Kept

variable {holds : DefUse → Prop} {progress : Progress} {id : BlockId}
  (kept : Kept known graph initial holds)

include kept

theorem arriving (stored : ∀ id, holds (progress.state id)) (id : BlockId) :
    holds (progress.arriving graph id) := by
  rw [Progress.arriving]
  have start := stored id
  generalize progress.state id = running at start ⊢
  induction graph.predecessors id generalizing running with
  | nil => exact start
  | cons first rest ih => exact ih _ (kept.union start (stored first))

theorem stateAfter (areReachable : statements ⊆ graph.reachableStatements) (start : holds running) :
    holds (stateAfter known running statements) := by
  induction statements generalizing running with
  | nil => exact start
  | cons first rest ih =>
      exact ih (List.subset_of_cons_subset areReachable)
        (kept.update (areReachable List.mem_cons_self) start)

theorem recorded_recordAll (areReachable : statements ⊆ graph.reachableStatements)
    (start : holds running)
    (isFlow : flow ∈ (recordAll known statements running progress).dataflows.toList) :
    flow ∈ progress.dataflows.toList ∨ Recorded known graph holds flow := by
  induction statements generalizing running progress with
  | nil => exact .inl isFlow
  | cons first rest ih =>
      have isReachable := areReachable List.mem_cons_self
      have updated := kept.update isReachable start
      rcases ih (List.subset_of_cons_subset areReachable) updated isFlow with early | recorded
      · rcases KeyedSet.mem_union.1 early with early | ⟨isDrawn, -⟩
        · exact .inl early
        · exact .inr ⟨first, isReachable, running, start, isDrawn⟩
      · exact .inr recorded

/-- All edges that a run draws are recorded over states with the property. -/
theorem recorded (wellFormed : graph.WellFormed) {visits : List BlockId} {last : Progress}
    (run : Run known graph (.start graph initial) visits last) :
    ∀ flow ∈ last.dataflows.toList, Recorded known graph holds flow := by
  have started : ∀ id, holds ((Progress.start graph initial).state id) := by
    intro id
    rw [state_start wellFormed]
    split
    · exact kept.seed
    · exact kept.empty
  have all := run.induction (motive := fun _ progress => Covered known graph initial progress ∧
    (∀ id, holds (progress.state id)) ∧
    ∀ flow ∈ progress.dataflows.toList, Recorded known graph holds flow) ?_ []
    ⟨covered_start wellFormed, started, fun _ absent => absurd absent List.not_mem_nil⟩
  · exact all.1.2.2
  rintro _ progress id pending isPending ⟨covered, stored, drawn⟩
  refine ⟨covered.replayBlock wellFormed isPending, ?_⟩
  have isReachable : id ∈ graph.reachable := covered.pending (isPending ▸ List.mem_cons_self)
  have areReachable := statements_subset_reachableStatements isReachable
  have inRange : id < progress.states.length := by
    rw [covered.length]
    exact wellFormed.lt_size_of_mem_reachable isReachable
  generalize poppedEq : { progress with pending, iterations := progress.iterations + 1 } = popped
  have storedPopped : ∀ id, holds (popped.state id) := by
    rw [← poppedEq]
    exact stored
  have inRangePopped : id < popped.states.length := by rwa [← poppedEq]
  have arriving := kept.arriving storedPopped id
  constructor
  · intro other
    rw [state_replayBlock inRangePopped]
    split
    · exact kept.stateAfter areReachable arriving
    · exact storedPopped other
  · intro flow isFlow
    rw [replayBlock, Progress.dataflows_store] at isFlow
    rcases kept.recorded_recordAll areReachable arriving isFlow with early | recorded
    · rw [← poppedEq] at early
      exact drawn flow early
    · exact recorded

end Kept

/-! ### Definitions that can be read and mutated -/

/-- Nothing in a running state needs a binding, and the definitions that can be read in it can be
mutated as well. -/
structure Orderly (running : DefUse) : Prop where
  noTargets : ∀ reference, reference ∉ (running.level .definition).toList
  bindings : ∀ level, ∀ reference ∈ (running.level level).toList, reference.level ≠ .use
  mutable : ∀ reference ∈ (running.level .use).toList, reference.level = .definition →
    reference.key ∈ (running.level .update).keys

namespace Orderly

theorem empty : Orderly .empty where
  noTargets := by simp
  bindings := by simp
  mutable := by simp

theorem union (orderly : Orderly running) (orderly' : Orderly other) :
    Orderly (running.union other) where
  noTargets := by
    intro reference isMember
    rcases DefUse.mem_level_union.1 isMember with isMember | ⟨isMember, -⟩
    · exact orderly.noTargets reference isMember
    · exact orderly'.noTargets reference isMember
  bindings := by
    intro level reference isMember
    rcases DefUse.mem_level_union.1 isMember with isMember | ⟨isMember, -⟩
    · exact orderly.bindings level reference isMember
    · exact orderly'.bindings level reference isMember
  mutable := by
    intro reference isMember isDefinition
    rw [DefUse.level_union]
    apply KeyedSet.mem_keys_union.2
    rcases DefUse.mem_level_union.1 isMember with isMember | ⟨isMember, -⟩
    · exact .inl (orderly.mutable reference isMember isDefinition)
    · exact .inr (orderly'.mutable reference isMember isDefinition)

theorem seed (areDefinitions : ∀ reference ∈ initial.toList, reference.level = .definition) :
    Orderly (seed initial) := by
  have isInitial : ∀ {level reference}, reference ∈ ((Analysis.seed initial).level level).toList →
      level ≠ .definition ∧ reference ∈ initial.toList := by
    intro level reference isMember
    rcases DefUse.mem_or_binds_of_mem_update isMember with absent | binds
    · simp at absent
    · exact binds_initial.1 binds
  constructor
  · exact fun reference isMember => (isInitial isMember).1 rfl
  · intro level reference isMember
    simp [areDefinitions reference (isInitial isMember).2]
  · intro reference isMember _
    exact DefUse.key_mem_update_of_binds (binds_initial.2 ⟨by simp, (isInitial isMember).2⟩)

/-- A definition that can no longer be mutated can no longer be read. -/
theorem update {statement : DefUse} {key : String} (orderly : Orderly running)
    (owned : statement.OwnedAt key) (plain : statement.HasPlainNames)
    (runningPlain : running.HasPlainNames) : Orderly (running.update statement) where
  noTargets := by
    intro reference isMember
    rcases DefUse.mem_or_binds_of_mem_update isMember with early | ⟨source, isSource, -⟩
    · exact orderly.noTargets reference early
    · exact absurd isSource List.not_mem_nil
  bindings := by
    intro level reference isMember
    rcases DefUse.mem_or_binds_of_mem_update isMember with early | binds
    · exact orderly.bindings level reference early
    · exact binds.level_ne_use owned.hasOwnLevels
  mutable := by
    intro reference isMember isDefinition
    rcases DefUse.mem_update.1 isMember with ⟨early, notKilled⟩ | ⟨isGenerated, -⟩
    · rcases KeyedSet.mem_keys.1 (orderly.mutable reference early isDefinition) with
        ⟨mutable, isMutable, sameKey⟩
      have sameName : mutable.name = reference.name :=
        (Reference.name_level_eq_of_key_eq (runningPlain .update mutable isMutable)
          (runningPlain .use reference early) sameKey).1
      have spared : ¬statement.Rebinds .update mutable.name := by
        intro rebinds
        rw [sameName, DefUse.rebinds_update_iff] at rebinds
        have killed := DefUse.isKilledBy_of_rebinds owned.hasOwnLevels plain
          (by simp [isDefinition]) (DefUse.rebinds_use_iff.2 (.inr rebinds))
        rw [killed] at notKilled
        cases notKilled
      have keyEq : Keyed.key mutable = reference.key := sameKey
      exact keyEq ▸ KeyedSet.key_mem_keys (DefUse.mem_update_of_not_rebinds isMutable spared)
    · rcases DefUse.binds_of_mem_generated isGenerated with ⟨source, -, isBound⟩
      have sourceEq : source = .definition := (owned source reference isBound).1 ▸ isDefinition
      apply DefUse.key_mem_update_of_binds
      exact ⟨.definition, by simp [Level.generatedBy], sourceEq ▸ isBound⟩

end Orderly

section

variable (plain : ∀ reference, Occurs known graph initial reference → reference.HasPlainName)

include plain

theorem hasPlainNames_of_reachable (isReachable : statement ∈ graph.reachableStatements) :
    (known statement).HasPlainNames :=
  fun level reference isMember => plain reference (.inr ⟨statement, isReachable, level, isMember⟩)

theorem kept_orderly
    (owned : ∀ statement ∈ graph.reachableStatements, (known statement).OwnedAt statement.key)
    (areDefinitions : ∀ reference ∈ initial.toList, reference.level = .definition) :
    Kept known graph initial fun running =>
      Occurring known graph initial running ∧ Orderly running where
  empty := ⟨by simp [Occurring], .empty⟩
  seed := ⟨occurring_seed, .seed areDefinitions⟩
  union := by
    rintro running other ⟨occurring, orderly⟩ ⟨occurring', orderly'⟩
    refine ⟨?_, orderly.union orderly'⟩
    intro level reference isMember
    rcases DefUse.mem_level_union.1 isMember with isMember | ⟨isMember, -⟩
    · exact occurring level reference isMember
    · exact occurring' level reference isMember
  update := by
    rintro running statement isReachable ⟨occurring, orderly⟩
    have statementPlain := hasPlainNames_of_reachable plain isReachable
    refine ⟨occurring.update isReachable, ?_⟩
    apply orderly.update (owned statement isReachable) statementPlain
    exact fun level reference isMember => plain reference (occurring level reference isMember)

end

/-- An edge from a definition to a statement that mutates its name carries the mutation, also if the
statement reads the name. -/
theorem Orderly.level_eq_update {statement : DefUse} {key : String} {source target : Reference}
    (orderly : Orderly running) (owned : statement.OwnedAt key)
    (isFlow : .between source target ∈ (statement.flowsFrom running).toList)
    (isDefinition : source.level = .definition) (refers : statement.Refers .update source.name)
    (unshared : ∀ other ∈ (running.level .update).toList, other.key = source.key →
      other.name = source.name ∧ other.owner.key = source.owner.key) : target.level = .update := by
  rcases DefUse.exists_pair_of_mem_flowsFrom isFlow with
    ⟨level, _, _, isPair, sameFlow, isFirst⟩
  rcases Option.some.inj (congrArg Dataflow.sourceRef sameFlow) with rfl
  rcases Option.some.inj (congrArg Dataflow.targetRef sameFlow) with rfl
  rcases DefUse.mem_pairsAt.1 isPair with ⟨isTarget, isSource, -⟩
  rw [(owned level target isTarget).1]
  cases level with
  | definition => exact absurd isSource (orderly.noTargets source)
  | update => rfl
  | use =>
      -- The definition can be mutated too, and the edge for that would have been drawn first.
      rcases KeyedSet.mem_keys.1 (orderly.mutable source isSource isDefinition) with
        ⟨mutable, isMutable, sameKey⟩
      rcases unshared mutable isMutable sameKey with ⟨sameName, sameOwner⟩
      rcases refers with ⟨mutated, isMutated, mutatedName⟩
      have isEarlier : (mutable, mutated) ∈ statement.pairsAt running .update :=
        DefUse.mem_pairsAt.2 ⟨isMutated, isMutable, sameName.trans mutatedName.symm⟩
      refine absurd ?_ (isFirst rfl _ isEarlier)
      have sameTarget : mutated.owner.key = target.owner.key :=
        (owned .update mutated isMutated).2.trans (owned .use target isTarget).2.symm
      simp only [Dataflow.key, Dataflow.between, sameOwner, sameTarget]

end Analysis

end FlowAnalysis
