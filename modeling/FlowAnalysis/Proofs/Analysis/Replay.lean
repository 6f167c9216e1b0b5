import FlowAnalysis.Analysis.Analyzer
import FlowAnalysis.Proofs.ControlFlow.Path
import FlowAnalysis.Proofs.Reference.DefUse

/-!
# Replaying an iteration

Once the definitions and uses of all statements are known, the iteration over the blocks of a graph
is a computation on its progress alone. A `Run` lists the blocks that it processes.
-/

namespace FlowAnalysis

namespace Analysis

/-- The running state after some statements. -/
def stateAfter (known : Node → DefUse) (running : DefUse) (statements : List Node) : DefUse :=
  statements.foldl (fun running statement => running.update (known statement)) running

/-- The progress after some statements have been recorded. -/
def recordAll (known : Node → DefUse) : List Node → DefUse → Progress → Progress
  | [], _, progress => progress
  | statement :: rest, running, progress =>
      recordAll known rest (running.update (known statement))
        (progress.record (known statement) running)

/-- The references at the end of a block when it is processed. -/
def leaving (known : Node → DefUse) (graph : Graph) (id : BlockId) (progress : Progress) : DefUse :=
  stateAfter known (progress.arriving graph id) (graph.statements id)

/-- The progress after a block has been processed. -/
def replayBlock (known : Node → DefUse) (graph : Graph) (id : BlockId) (progress : Progress) :
    Progress :=
  (recordAll known (graph.statements id) (progress.arriving graph id) progress).store graph id
    (leaving known graph id progress)

/-- The progress after pending blocks have been processed, at most as many as the first argument
says. -/
def replay (known : Node → DefUse) (graph : Graph) : Nat → Progress → Progress
  | 0, progress =>
      { progress with
        iterations := progress.iterations + if progress.pending.isEmpty then 0 else 1 }
  | limit + 1, progress =>
      match progress.pending with
      | [] => progress
      | id :: pending =>
          replay known graph limit
            (replayBlock known graph id
              { progress with pending, iterations := progress.iterations + 1 })

/-- The blocks that are processed until none is pending. -/
inductive Run (known : Node → DefUse) (graph : Graph) :
    Progress → List BlockId → Progress → Prop where
  | done {progress : Progress} (nonePending : progress.pending = []) :
      Run known graph progress [] progress
  | step {progress last : Progress} {id : BlockId} {pending visits : List BlockId}
      (isPending : progress.pending = id :: pending)
      (rest : Run known graph
        (replayBlock known graph id
          { progress with pending, iterations := progress.iterations + 1 }) visits last) :
      Run known graph progress (id :: visits) last

variable {known : Node → DefUse} {graph : Graph}

/-- An iteration that leaves no block pending is a run. -/
theorem exists_run_replay {limit : Nat} {progress : Progress}
    (nonePending : (replay known graph limit progress).pending = []) :
    ∃ visits, Run known graph progress visits (replay known graph limit progress) := by
  induction limit generalizing progress with
  | zero =>
      have isDone : progress.pending = [] := nonePending
      have unchanged : replay known graph 0 progress = progress := by
        rcases progress with ⟨pending, _, _, _, _, _⟩
        rcases (isDone : pending = [])
        rfl
      rw [unchanged]
      exact ⟨[], .done isDone⟩
  | succ limit ih =>
      rw [replay] at nonePending ⊢
      split
      · next isDone => exact ⟨[], .done isDone⟩
      · next id pending isPending =>
          rw [isPending] at nonePending
          rcases ih nonePending with ⟨visits, run⟩
          exact ⟨id :: visits, .step isPending run⟩

/-- What holds of the blocks processed so far and of the progress made is kept by a run if it is
kept whenever a block is processed. -/
theorem Run.induction {motive : List BlockId → Progress → Prop}
    (processed : ∀ past progress id pending, progress.pending = id :: pending →
      motive past progress → motive (past ++ [id])
        (replayBlock known graph id
          { progress with pending, iterations := progress.iterations + 1 }))
    {visits : List BlockId} {progress last : Progress}
    (run : Run known graph progress visits last) (past : List BlockId)
    (start : motive past progress) : motive (past ++ visits) last ∧ last.pending = [] := by
  induction run generalizing past with
  | done nonePending =>
      rw [List.append_nil]
      exact ⟨start, nonePending⟩
  | step isPending _ ih =>
      have later := ih _ (processed _ _ _ _ isPending start)
      rwa [List.append_assoc] at later

/-! ### Recording statements -/

namespace Progress

variable {progress : Progress} {source target : Reference}

/-- An edge leads from a reference to another one, and the latter counts as reached. -/
def Draws (progress : Progress) (source target : Reference) : Prop :=
  progress.dataflows.contains (.between source target) = true ∧
    target.key ∈ progress.defined.keys

/-- Nothing that has been drawn is lost. -/
structure Extends (before after : Progress) : Prop where
  dataflows : ∀ flow ∈ before.dataflows.toList, flow ∈ after.dataflows.toList
  defined : before.defined.keys ⊆ after.defined.keys

theorem Extends.refl (progress : Progress) : progress.Extends progress :=
  ⟨fun _ member => member, List.Subset.refl _⟩

theorem Extends.trans {first second third : Progress} (extends' : first.Extends second)
    (extends'' : second.Extends third) : first.Extends third :=
  ⟨fun flow member => extends''.dataflows flow (extends'.dataflows flow member),
    List.Subset.trans extends'.defined extends''.defined⟩

theorem Draws.mono {before after : Progress} (draws : before.Draws source target)
    (extends' : before.Extends after) : after.Draws source target := by
  refine ⟨?_, extends'.defined draws.2⟩
  rcases KeyedSet.mem_keys.1 (KeyedSet.contains_iff.1 draws.1) with ⟨flow, member, keyEq⟩
  rw [KeyedSet.contains_iff, ← keyEq]
  exact KeyedSet.key_mem_keys (extends'.dataflows flow member)

theorem extends_record (progress : Progress) (statement running : DefUse) :
    progress.Extends (progress.record statement running) :=
  ⟨fun _ member => KeyedSet.mem_union.2 (.inl member),
    fun _ isKey => KeyedSet.mem_keys_union.2 (.inl isKey)⟩

theorem draws_record {statement running : DefUse}
    (reaches : (source, target) ∈ statement.reachingPairs running) :
    (progress.record statement running).Draws source target := by
  constructor
  · refine KeyedSet.contains_iff.2 (KeyedSet.mem_keys_union.2 (.inr ?_))
    rw [DefUse.flowsFrom, KeyedSet.mem_keys_ofList, List.map_map]
    exact List.mem_map.2 ⟨_, reaches, rfl⟩
  · refine KeyedSet.mem_keys_union.2 (.inr ?_)
    rw [DefUse.reachedFrom, KeyedSet.mem_keys_ofList, List.map_map]
    exact List.mem_map.2 ⟨_, reaches, rfl⟩

/-- What has been reached does not count as undefined. -/
def Separated (progress : Progress) : Prop :=
  ∀ key ∈ progress.defined.keys, key ∉ progress.undefinedRefs.keys

theorem separated_record (progress : Progress) (statement running : DefUse) :
    (progress.record statement running).Separated :=
  fun _ isDefined isUndefined => (KeyedSet.mem_keys_minus.1 isUndefined).2 isDefined

/-! ### Scheduling blocks -/

theorem mem_schedule {pending ids : List BlockId} {id : BlockId} :
    id ∈ schedule pending ids ↔ id ∈ pending ∨ id ∈ ids := by
  induction ids generalizing pending with
  | nil => simp [schedule]
  | cons first rest ih =>
      have step : schedule pending (first :: rest) =
        schedule (if first ∈ pending then pending else first :: pending) rest := rfl
      rw [step, ih]
      split <;> grind

theorem nodup_schedule {pending ids : List BlockId} (distinct : pending.Nodup) :
    (schedule pending ids).Nodup := by
  induction ids generalizing pending with
  | nil => exact distinct
  | cons first rest ih =>
      have step : schedule pending (first :: rest) =
        schedule (if first ∈ pending then pending else first :: pending) rest := rfl
      rw [step]
      apply ih
      split
      · exact distinct
      · next absent => exact List.nodup_cons.2 ⟨absent, distinct⟩

end Progress

theorem states_recordAll (statements : List Node) (running : DefUse) (progress : Progress) :
    (recordAll known statements running progress).states = progress.states := by
  induction statements generalizing running progress with
  | nil => rfl
  | cons statement rest ih => exact ih _ _

theorem pending_recordAll (statements : List Node) (running : DefUse) (progress : Progress) :
    (recordAll known statements running progress).pending = progress.pending := by
  induction statements generalizing running progress with
  | nil => rfl
  | cons statement rest ih => exact ih _ _

theorem extends_recordAll (statements : List Node) (running : DefUse) (progress : Progress) :
    progress.Extends (recordAll known statements running progress) := by
  induction statements generalizing running progress with
  | nil => exact .refl progress
  | cons statement rest ih => exact (progress.extends_record _ running).trans (ih _ _)

theorem separated_recordAll {progress : Progress} (separated : progress.Separated)
    (statements : List Node) (running : DefUse) :
    (recordAll known statements running progress).Separated := by
  induction statements generalizing running progress with
  | nil => exact separated
  | cons statement rest ih => exact ih (progress.separated_record _ running) _

/-- Statements that run over a state have a reference reach another one. -/
inductive Meets (known : Node → DefUse) : DefUse → List Node → Reference → Reference → Prop where
  | head {running : DefUse} {statement : Node} {rest : List Node} {source target : Reference}
      (reaches : (source, target) ∈ (known statement).reachingPairs running) :
      Meets known running (statement :: rest) source target
  | tail {running : DefUse} {statement : Node} {rest : List Node} {source target : Reference}
      (meets : Meets known (running.update (known statement)) rest source target) :
      Meets known running (statement :: rest) source target

theorem Meets.intro {front back : List Node} {statement : Node} {running : DefUse}
    {source target : Reference}
    (reaches : (source, target) ∈
      (known statement).reachingPairs (stateAfter known running front)) :
    Meets known running (front ++ statement :: back) source target := by
  induction front generalizing running with
  | nil => exact .head reaches
  | cons first rest ih => exact .tail (ih reaches)

theorem Meets.exists_split {running : DefUse} {statements : List Node} {source target : Reference}
    (meets : Meets known running statements source target) :
    ∃ front statement back level, statements = front ++ statement :: back ∧
      target ∈ ((known statement).level level).toList ∧
      source ∈ ((stateAfter known running front).level level).toList ∧
      source.name = target.name := by
  induction meets with
  | head reaches =>
      rcases DefUse.mem_reachingPairs.1 reaches with ⟨level, isTarget, isSource, sameName⟩
      exact ⟨[], _, _, level, rfl, isTarget, isSource, sameName⟩
  | @tail running first rest _ _ _ ih =>
      rcases ih with ⟨front, statement, back, level, rfl, isTarget, isSource, sameName⟩
      exact ⟨first :: front, statement, back, level, rfl, isTarget, isSource, sameName⟩

/-- What statements have reach each other is drawn. -/
theorem Meets.draws {statements : List Node} {running : DefUse} {source target : Reference}
    (meets : Meets known running statements source target) (progress : Progress) :
    (recordAll known statements running progress).Draws source target := by
  induction meets generalizing progress with
  | head reaches => exact (Progress.draws_record reaches).mono (extends_recordAll _ _ _)
  | tail _ ih => exact ih _

/-- Nothing else is drawn. -/
theorem mem_dataflows_recordAll {statements : List Node} {running : DefUse} {progress : Progress}
    {flow : Dataflow}
    (isMember : flow ∈ (recordAll known statements running progress).dataflows.toList) :
    flow ∈ progress.dataflows.toList ∨
      ∃ source target, Meets known running statements source target ∧
        flow = .between source target := by
  induction statements generalizing running progress with
  | nil => exact .inl isMember
  | cons statement rest ih =>
      rcases ih isMember with early | ⟨source, target, meets, flowEq⟩
      · rcases KeyedSet.mem_union.1 early with early | ⟨drawn, -⟩
        · exact .inl early
        · rcases List.mem_map.1 (KeyedSet.mem_ofList drawn) with ⟨⟨source, target⟩, reaches, rfl⟩
          exact .inr ⟨source, target, .head reaches, rfl⟩
      · exact .inr ⟨source, target, .tail meets, flowEq⟩

/-- Nothing else counts as reached. -/
theorem mem_defined_recordAll {statements : List Node} {running : DefUse} {progress : Progress}
    {target : Reference}
    (isMember : target ∈ (recordAll known statements running progress).defined.toList) :
    target ∈ progress.defined.toList ∨ ∃ source, Meets known running statements source target := by
  induction statements generalizing running progress with
  | nil => exact .inl isMember
  | cons statement rest ih =>
      rcases ih isMember with early | ⟨source, meets⟩
      · rcases KeyedSet.mem_union.1 early with early | ⟨reached, -⟩
        · exact .inl early
        · rcases List.mem_map.1 (KeyedSet.mem_ofList reached) with ⟨⟨source, _⟩, reaches, rfl⟩
          exact .inr ⟨source, .head reaches⟩
      · exact .inr ⟨source, .tail meets⟩

namespace Progress

/-- A reference counts as undefined or as reached. -/
def Accounts (progress : Progress) (key : String) : Prop :=
  key ∈ progress.undefinedRefs.keys ∨ key ∈ progress.defined.keys

theorem accounts_record {progress : Progress} {statement running : DefUse} {key : String}
    (isKnown : progress.Accounts key ∨ key ∈ statement.allUses.keys) :
    (progress.record statement running).Accounts key := by
  by_cases reached : key ∈ (progress.record statement running).defined.keys
  · exact .inr reached
  · refine .inl (KeyedSet.mem_keys_minus.2 ⟨KeyedSet.mem_keys_union.2 ?_, reached⟩)
    rcases isKnown with (isUndefined | isDefined) | isUse
    · exact .inl isUndefined
    · exact absurd (KeyedSet.mem_keys_union.2 (.inl isDefined)) reached
    · exact .inr isUse

end Progress

theorem accounts_recordAll {statements : List Node} {running : DefUse} {progress : Progress}
    {key : String} (isKnown : progress.Accounts key ∨
      ∃ statement ∈ statements, key ∈ (known statement).allUses.keys) :
    (recordAll known statements running progress).Accounts key := by
  induction statements generalizing running progress with
  | nil => exact isKnown.resolve_right (by simp)
  | cons first rest ih =>
      apply ih
      rcases isKnown with isKnown | ⟨statement, member, isUse⟩
      · exact .inl (Progress.accounts_record (.inl isKnown))
      · rcases List.mem_cons.1 member with rfl | later
        · exact .inl (Progress.accounts_record (.inr isUse))
        · exact .inr ⟨statement, later, isUse⟩

/-! ### Processing blocks -/

namespace Progress

variable {progress : Progress} {id : BlockId} {running : DefUse}

@[simp]
theorem length_states_store :
    (progress.store graph id running).states.length = progress.states.length := by
  rw [store]
  split <;> simp

@[simp]
theorem dataflows_store : (progress.store graph id running).dataflows = progress.dataflows := by
  rw [store]
  split <;> rfl

@[simp]
theorem defined_store : (progress.store graph id running).defined = progress.defined := by
  rw [store]
  split <;> rfl

@[simp]
theorem undefinedRefs_store :
    (progress.store graph id running).undefinedRefs = progress.undefinedRefs := by
  rw [store]
  split <;> rfl

/-- Storing a state changes no other one. -/
theorem state_store (inRange : id < progress.states.length) (other : BlockId) :
    (progress.store graph id running).state other =
      if other = id ∧ running.sameRefs (progress.state id) = false then running
      else progress.state other := by
  rw [store]
  split
  · next same => rw [if_neg (by simp [same])]
  · next differs =>
      rw [Progress.state]
      by_cases isOther : id = other
      · subst isOther
        rw [if_pos ⟨rfl, Bool.eq_false_iff.2 differs⟩, List.getElem?_set_self inRange]
        rfl
      · rw [if_neg fun both => isOther both.1.symm, List.getElem?_set_ne isOther]
        rfl

/-- The stored state has the keys of the new one. -/
theorem keys_state_store (inRange : id < progress.states.length) (level : Level) (key : String) :
    key ∈ (((progress.store graph id running).state id).level level).keys ↔
      key ∈ (running.level level).keys := by
  rw [state_store inRange]
  split
  · rfl
  · next unchanged =>
      have same : running.sameRefs (progress.state id) = true := by simpa using unchanged
      exact (DefUse.keys_of_sameRefs same).symm

/-- The successors of a block are pending if its state changes. -/
theorem mem_pending_store {other : BlockId} :
    other ∈ (progress.store graph id running).pending ↔
      other ∈ progress.pending ∨
        running.sameRefs (progress.state id) = false ∧ other ∈ graph.successors id := by
  rw [store]
  split
  · next same => simp [same]
  · next differs => simp [mem_schedule, differs]

theorem nodup_pending_store (distinct : progress.pending.Nodup) :
    (progress.store graph id running).pending.Nodup := by
  rw [store]
  split
  · exact distinct
  · exact nodup_schedule distinct

end Progress

variable {progress : Progress} {id : BlockId}

theorem state_recordAll (statements : List Node) (running : DefUse) (progress : Progress) :
    (recordAll known statements running progress).state = progress.state := by
  funext other
  rw [Progress.state, states_recordAll]
  rfl

theorem state_replayBlock (inRange : id < progress.states.length) (other : BlockId) :
    (replayBlock known graph id progress).state other =
      if other = id ∧ (leaving known graph id progress).sameRefs (progress.state id) = false then
        leaving known graph id progress
      else progress.state other := by
  rw [replayBlock, Progress.state_store (by rwa [states_recordAll]), state_recordAll]

theorem mem_pending_replayBlock {other : BlockId} :
    other ∈ (replayBlock known graph id progress).pending ↔
      other ∈ progress.pending ∨
        (leaving known graph id progress).sameRefs (progress.state id) = false ∧
          other ∈ graph.successors id := by
  rw [replayBlock, Progress.mem_pending_store, state_recordAll, pending_recordAll]

theorem extends_replayBlock : progress.Extends (replayBlock known graph id progress) := by
  have recorded : progress.Extends
      (recordAll known (graph.statements id) (progress.arriving graph id) progress) :=
    extends_recordAll _ _ _
  refine ⟨?_, ?_⟩
  · rw [replayBlock, Progress.dataflows_store]
    exact recorded.dataflows
  · rw [replayBlock, Progress.defined_store]
    exact recorded.defined

theorem separated_replayBlock (separated : progress.Separated) :
    (replayBlock known graph id progress).Separated := by
  rw [Progress.Separated, replayBlock, Progress.defined_store, Progress.undefinedRefs_store]
  exact separated_recordAll separated _ _

theorem accounts_replayBlock {key : String} (isKnown : progress.Accounts key ∨
      ∃ statement ∈ graph.statements id, key ∈ (known statement).allUses.keys) :
    (replayBlock known graph id progress).Accounts key := by
  rw [Progress.Accounts, replayBlock, Progress.undefinedRefs_store, Progress.defined_store]
  exact accounts_recordAll isKnown

/-- What meets in a block is drawn when the block is processed. -/
theorem Meets.draws_replayBlock {source target : Reference}
    (meets : Meets known (progress.arriving graph id) (graph.statements id) source target) :
    (replayBlock known graph id progress).Draws source target := by
  rw [Progress.Draws, replayBlock, Progress.dataflows_store, Progress.defined_store]
  exact meets.draws progress

/-- The references of a stored state, and those of the states of predecessors, arrive. -/
theorem mem_arriving {level : Level} {reference : Reference}
    (isMember : reference ∈ ((progress.arriving graph id).level level).toList) :
    reference ∈ ((progress.state id).level level).toList ∨
      ∃ source ∈ graph.predecessors id,
        reference ∈ ((progress.state source).level level).toList := by
  rw [Progress.arriving] at isMember
  generalize progress.state id = stored at isMember ⊢
  generalize graph.predecessors id = sources at isMember ⊢
  induction sources generalizing stored with
  | nil => exact .inl isMember
  | cons first rest ih =>
      rcases ih _ isMember with early | ⟨source, isSource, later⟩
      · rcases DefUse.mem_level_union.1 early with early | ⟨inFirst, -⟩
        · exact .inl early
        · exact .inr ⟨first, List.mem_cons_self, inFirst⟩
      · exact .inr ⟨source, List.mem_cons_of_mem _ isSource, later⟩

theorem mem_arriving_of_mem_stored {level : Level} {reference : Reference}
    (isMember : reference ∈ ((progress.state id).level level).toList) :
    reference ∈ ((progress.arriving graph id).level level).toList := by
  rw [Progress.arriving]
  generalize progress.state id = stored at isMember ⊢
  generalize graph.predecessors id = sources
  induction sources generalizing stored with
  | nil => exact isMember
  | cons first rest ih =>
      apply ih
      exact DefUse.mem_level_union.2 (.inl isMember)

theorem keys_arriving {level : Level} {key : String} :
    key ∈ ((progress.arriving graph id).level level).keys ↔
      key ∈ ((progress.state id).level level).keys ∨
        ∃ source ∈ graph.predecessors id, key ∈ ((progress.state source).level level).keys := by
  rw [Progress.arriving]
  generalize progress.state id = stored
  induction graph.predecessors id generalizing stored with
  | nil => simp
  | cons first rest ih =>
      rw [List.foldl_cons, ih, DefUse.level_union, KeyedSet.mem_keys_union]
      simp [or_assoc]

end Analysis

end FlowAnalysis
