import FlowAnalysis.Proofs.Analysis.Learning
import FlowAnalysis.Proofs.Analysis.Reaching
import FlowAnalysis.Proofs.ControlFlow.Order
import FlowAnalysis.Proofs.Reference.Transfer

/-!
# What is stored for a block grows

Running statements over more references need not leave more of them behind: what arrives may be
killed. But what is stored for a block has been left behind by its statements, and it arrives at
the block again. What the statements have generated they generate again, and what they have spared
they spare again; so from one visit to the next nothing is lost. This holds for the keys of the
references if a key tells the name, since whether a reference is spared depends on its name. A block
with a single statement loses nothing in any case: there, the very references that are stored arrive
and run into the statement.

The entry is the exception to the rule, as its state at the start is not left behind by statements.
No edge leads to it, so it is visited only once.
-/

namespace FlowAnalysis

namespace Analysis

/-- The progress after a block has been taken from the top of the pending ones and processed. -/
def visit (known : Node → DefUse) (graph : Graph) (id : BlockId) (progress : Progress) : Progress :=
  replayBlock known graph id
    { progress with pending := progress.pending.tail, iterations := progress.iterations + 1 }

/-- Blocks that are visited one after the other, each when it is the next one that is pending. -/
inductive Visits (known : Node → DefUse) (graph : Graph) :
    Progress → List BlockId → Progress → Prop where
  | none (progress : Progress) : Visits known graph progress [] progress
  | step {progress last : Progress} {id : BlockId} {pending visits : List BlockId}
      (isPending : progress.pending = id :: pending)
      (rest : Visits known graph (visit known graph id progress) visits last) :
      Visits known graph progress (id :: visits) last

/-- The progress after blocks have been visited, if they are the next ones that are pending. -/
def visitAll? (known : Node → DefUse) (graph : Graph) :
    List BlockId → Progress → Option Progress
  | [], progress => some progress
  | id :: visits, progress =>
      if progress.pending.head? = some id then
        visitAll? known graph visits (visit known graph id progress)
      else none

/-- There is a state for each block of a graph, and the pending blocks are reachable. -/
structure Fits (graph : Graph) (progress : Progress) : Prop where
  length : progress.states.length = graph.size
  pending : progress.pending ⊆ graph.reachable

/-- What is stored for a block its statements have left of some references with a property, unless
nothing has been stored yet. -/
def Stored (known : Node → DefUse) (graph : Graph) (arises : DefUse → Prop) (progress : Progress)
    (id : BlockId) : Prop :=
  progress.state id = .empty ∨ ∃ arrived, arises arrived ∧
    progress.state id = stateAfter known arrived (graph.statements id)

/-- A key tells the name, for the references that occur. -/
def KeysTellNames (known : Node → DefUse) (graph : Graph) (initial : RefSet) : Prop :=
  ∀ reference other, Occurs known graph initial reference → Occurs known graph initial other →
    reference.key = other.key → reference.name = other.name

variable {known : Node → DefUse} {graph : Graph} {initial : RefSet} {progress last : Progress}
  {id other : BlockId} {pending visits : List BlockId} {level : Level} {key : String}

/-! ### One visit -/

theorem visit_eq (isPending : progress.pending = id :: pending) : visit known graph id progress =
    replayBlock known graph id
      { progress with pending, iterations := progress.iterations + 1 } := by
  rw [visit, isPending, List.tail_cons]

theorem state_visit (inRange : id < progress.states.length) (other : BlockId) :
    (visit known graph id progress).state other =
      if other = id ∧ (leaving known graph id progress).sameRefs (progress.state id) = false then
        leaving known graph id progress
      else progress.state other := by
  have inRange' : id < ({ progress with
      pending := progress.pending.tail
      iterations := progress.iterations + 1 } : Progress).states.length := inRange
  exact state_replayBlock inRange' other

/-- The blocks that become pending are successors, and the state of the block has changed. -/
theorem exists_pending_visit_eq (known : Node → DefUse) (graph : Graph) (id : BlockId)
    (progress : Progress) :
    ∃ extra, (visit known graph id progress).pending = extra ++ progress.pending.tail ∧
      (∀ other ∈ extra, other ∈ graph.successors id) ∧
      ((leaving known graph id progress).sameRefs (progress.state id) = true → extra = []) := by
  rw [visit, replayBlock, Progress.store, pending_recordAll, state_recordAll]
  split
  · exact ⟨[], pending_recordAll _ _ _, by simp, fun _ => rfl⟩
  · next changed =>
      rcases Progress.exists_schedule_eq progress.pending.tail (graph.successors id) with
        ⟨extra, scheduled, areNew⟩
      exact ⟨extra, scheduled, fun other isExtra => (areNew other isExtra).1,
        fun same => absurd same changed⟩

theorem length_states_visit :
    (visit known graph id progress).states.length = progress.states.length := by
  rw [visit, replayBlock, Progress.length_states_store, states_recordAll]

theorem iterations_visit :
    (visit known graph id progress).iterations = progress.iterations + 1 := by
  have recorded : ∀ (statements : List Node) (running : DefUse) (progress : Progress),
      (recordAll known statements running progress).iterations = progress.iterations := by
    intro statements
    induction statements with
    | nil => exact fun _ _ => rfl
    | cons first rest ih => exact fun _ _ => ih _ _
  rw [visit, replayBlock, Progress.store]
  split <;> exact recorded _ _ _

theorem Covered.visit (covered : Covered known graph initial progress)
    (wellFormed : graph.WellFormed) (isPending : progress.pending = id :: pending) :
    Covered known graph initial (visit known graph id progress) := by
  rw [visit_eq isPending]
  exact covered.replayBlock wellFormed isPending

namespace Fits

theorem isReachable (fits : Fits graph progress) (isPending : progress.pending = id :: pending) :
    id ∈ graph.reachable :=
  fits.pending (isPending ▸ List.mem_cons_self)

theorem lt_length (fits : Fits graph progress) (wellFormed : graph.WellFormed)
    (isPending : progress.pending = id :: pending) : id < progress.states.length := by
  rw [fits.length]
  exact wellFormed.lt_size_of_mem_reachable (fits.isReachable isPending)

theorem visit (fits : Fits graph progress) (wellFormed : graph.WellFormed)
    (isPending : progress.pending = id :: pending) :
    Fits graph (visit known graph id progress) := by
  refine ⟨length_states_visit.trans fits.length, ?_⟩
  rcases exists_pending_visit_eq known graph id progress with ⟨extra, pendingEq, successors, -⟩
  rw [pendingEq, isPending, List.tail_cons]
  refine List.append_subset.2 ⟨fun other isExtra => ?_, fun other isOther => ?_⟩
  · exact wellFormed.mem_reachable_of_successor (fits.isReachable isPending)
      (successors other isExtra)
  · exact fits.pending (isPending ▸ List.mem_cons_of_mem _ isOther)

end Fits

theorem fits_start (graph : Graph) (initial : RefSet) : Fits graph (.start graph initial) where
  length := by simp [Progress.start]
  pending := List.Subset.refl _

theorem Covered.fits (covered : Covered known graph initial progress) : Fits graph progress :=
  ⟨covered.length, covered.pending⟩

theorem Stored.visit {arises : DefUse → Prop} (stored : Stored known graph arises progress other)
    (inRange : id < progress.states.length) (arriving : arises (progress.arriving graph id)) :
    Stored known graph arises (visit known graph id progress) other := by
  rw [Stored, state_visit inRange]
  split
  · next changed => exact .inr ⟨_, arriving, by rw [changed.1]; rfl⟩
  · exact stored

theorem visits_of_visitAll? (computed : visitAll? known graph visits progress = some last) :
    Visits known graph progress visits last := by
  induction visits generalizing progress with
  | nil =>
      rcases Option.some.inj computed with rfl
      exact .none progress
  | cons id visits ih =>
      rw [visitAll?] at computed
      split at computed
      · next isNext =>
          rcases List.head?_eq_some_iff.1 isNext with ⟨pending, isPending⟩
          exact .step isPending (ih computed)
      · cases computed

/-! ### What is stored leaves the block again -/

theorem keysIn_refl (state : DefUse) : KeysIn state state :=
  fun _ => List.Subset.refl _

theorem KeysIn.trans {first second third : DefUse} (keysIn : KeysIn first second)
    (keysIn' : KeysIn second third) : KeysIn first third :=
  fun level => List.Subset.trans (keysIn level) (keysIn' level)

theorem keysIn_empty (state : DefUse) : KeysIn .empty state := by
  intro level key isKey
  rw [DefUse.level_empty] at isKey
  exact absurd isKey List.not_mem_nil

/-- What a statement has left of some references is left again of references that include it. -/
theorem keysIn_update_of_mem {arrived arriving statement : DefUse}
    (again : ∀ level, ∀ reference ∈ ((arrived.update statement).level level).toList,
      reference ∈ (arriving.level level).toList) :
    KeysIn (arrived.update statement) (arriving.update statement) := by
  intro level key isKey
  rcases KeyedSet.mem_keys.1 isKey with ⟨reference, isMember, rfl⟩
  rcases DefUse.mem_update.1 isMember with ⟨-, spared⟩ | ⟨isGenerated, -⟩
  · have isAgain := again level reference isMember
    exact KeyedSet.key_mem_keys (DefUse.mem_update.2 (.inl ⟨isAgain, spared⟩))
  · exact DefUse.key_mem_update_of_binds (DefUse.binds_of_mem_generated isGenerated)

/-- A block with a single statement passes on again what is stored for it. -/
theorem Stored.keysIn_leaving_of_single {statement : Node} {arises : DefUse → Prop}
    (stored : Stored known graph arises progress id)
    (single : graph.statements id = [statement]) :
    KeysIn (progress.state id) (leaving known graph id progress) := by
  rcases stored with isEmpty | ⟨arrived, -, stateEq⟩
  · rw [isEmpty]
    exact keysIn_empty _
  · rw [single] at stateEq
    have left : progress.state id = arrived.update (known statement) := stateEq
    rw [leaving, single, left]
    refine keysIn_update_of_mem fun level reference isMember => ?_
    exact mem_arriving_of_mem_stored (left ▸ isMember)

section

theorem keysTellNames_of_plain
    (plain : ∀ reference, Occurs known graph initial reference → reference.HasPlainName) :
    KeysTellNames known graph initial :=
  fun reference other occurs occurs' same => (Reference.name_level_eq_of_key_eq
    (plain reference occurs) (plain other occurs') same).1

variable (tells : KeysTellNames known graph initial)

include tells

theorem Occurring.namedAlike {state state' : DefUse}
    (occurring : Occurring known graph initial state)
    (occurring' : Occurring known graph initial state') : DefUse.NamedAlike state state' :=
  fun level reference isMember other isOther same => tells reference other
    (occurring level reference isMember) (occurring' level other isOther) same

/-- Statements leave a key of a state if they leave it of another state that has the key only if the
first one does. -/
theorem key_mem_stateAfter {statements : List Node} {state state' : DefUse}
    (occurring : Occurring known graph initial state)
    (occurring' : Occurring known graph initial state')
    (areReachable : statements ⊆ graph.reachableStatements)
    (within : key ∈ (state.level level).keys → key ∈ (state'.level level).keys)
    (isKey : key ∈ ((stateAfter known state statements).level level).keys) :
    key ∈ ((stateAfter known state' statements).level level).keys := by
  induction statements generalizing state state' with
  | nil => exact within isKey
  | cons first rest ih =>
      have isReachable := areReachable List.mem_cons_self
      refine ih (occurring.update isReachable) (occurring'.update isReachable)
        (List.subset_of_cons_subset areReachable) (fun isLeft => ?_) isKey
      rcases DefUse.mem_keys_update.1 isLeft with spares | isGenerated
      · -- Whether a reference is spared depends on its name, which here its key tells.
        have alike := occurring.namedAlike tells occurring'
        exact DefUse.mem_keys_update.2 (.inl (spares.of_namedAlike alike (within spares.mem_keys)))
      · exact DefUse.mem_keys_update.2 (.inr isGenerated)

/-- A block passes on again what is stored for it. -/
theorem Stored.keysIn_leaving
    (stored : Stored known graph (Occurring known graph initial) progress id)
    (occurring : ∀ id, Occurring known graph initial (progress.state id))
    (isReachable : id ∈ graph.reachable) :
    KeysIn (progress.state id) (leaving known graph id progress) := by
  rcases stored with isEmpty | ⟨arrived, arose, stateEq⟩
  · rw [isEmpty]
    exact keysIn_empty _
  · intro level key isKey
    have arrives : key ∈ ((progress.arriving graph id).level level).keys :=
      keys_arriving.2 (.inl isKey)
    rw [stateEq] at isKey
    exact key_mem_stateAfter tells arose (occurring_arriving occurring id)
      (statements_subset_reachableStatements isReachable) (fun _ => arrives) isKey

end

/-! ### Visits one after the other -/

namespace Visits

variable {first second : List BlockId}

/-- What holds of the blocks visited so far and of the progress made is kept by visits if it is kept
by each of them. -/
theorem induction {motive : List BlockId → Progress → Prop}
    (visited : ∀ past progress id pending, progress.pending = id :: pending →
      motive past progress → motive (past ++ [id]) (visit known graph id progress))
    (path : Visits known graph progress visits last) (past : List BlockId)
    (start : motive past progress) : motive (past ++ visits) last := by
  induction path generalizing past with
  | none => rwa [List.append_nil]
  | step isPending _ ih =>
      have later := ih _ (visited _ _ _ _ isPending start)
      rwa [List.append_assoc] at later

theorem run (path : Visits known graph progress visits last) (nonePending : last.pending = []) :
    Run known graph progress visits last := by
  induction path with
  | none => exact .done nonePending
  | step isPending _ ih =>
      have rest := ih nonePending
      rw [visit_eq isPending] at rest
      exact .step isPending rest

theorem iterations_eq (path : Visits known graph progress visits last) :
    last.iterations = progress.iterations + visits.length := by
  refine path.induction (motive := fun past later =>
    later.iterations = progress.iterations + past.length) ?_ [] rfl
  intro past later id pending _ counted
  rw [iterations_visit, counted, List.length_append, List.length_singleton, Nat.add_assoc]

/-- What has been visited covers the blocks as a run does. -/
theorem covered (path : Visits known graph progress visits last) (wellFormed : graph.WellFormed)
    (start : Covered known graph initial progress) : Covered known graph initial last :=
  path.induction (motive := fun _ progress => Covered known graph initial progress)
    (fun _ _ _ _ isPending covered => covered.visit wellFormed isPending) [] start

theorem stored (path : Visits known graph (.start graph initial) visits last)
    (wellFormed : graph.WellFormed) (notEntry : id ≠ graph.entry) :
    Stored known graph (Occurring known graph initial) last id := by
  refine (path.induction (motive := fun _ progress => Covered known graph initial progress ∧
    Stored known graph (Occurring known graph initial) progress id) ?_ [] ?_).2
  · rintro _ progress visited pending isPending ⟨covered, stored⟩
    have inRange := covered.fits.lt_length wellFormed isPending
    exact ⟨covered.visit wellFormed isPending,
      stored.visit inRange (occurring_arriving covered.occurring visited)⟩
  · exact ⟨covered_start wellFormed, .inl (by rw [state_start wellFormed, if_neg notEntry])⟩

/-- Whatever is visited in between, what is stored for a block has all keys that it had before. -/
theorem keysIn (tells : KeysTellNames known graph initial) (wellFormed : graph.WellFormed)
    (notEntry : id ≠ graph.entry) (past : Visits known graph (.start graph initial) first progress)
    (between : Visits known graph progress second last) :
    KeysIn (progress.state id) (last.state id) := by
  have start := past.covered wellFormed (covered_start wellFormed)
  refine (between.induction (motive := fun _ later => Covered known graph initial later ∧
    Stored known graph (Occurring known graph initial) later id ∧
    KeysIn (progress.state id) (later.state id)) ?_ []
    ⟨start, past.stored wellFormed notEntry, keysIn_refl _⟩).2.2
  rintro _ later visited pending isPending ⟨covered, stored, grown⟩
  have inRange := covered.fits.lt_length wellFormed isPending
  refine ⟨covered.visit wellFormed isPending,
    stored.visit inRange (occurring_arriving covered.occurring visited), ?_⟩
  rw [state_visit inRange]
  split
  · next changed =>
      rcases changed with ⟨rfl, -⟩
      exact grown.trans (stored.keysIn_leaving tells covered.occurring
        (covered.fits.isReachable isPending))
  · exact grown

/-- The entry is either pending or has been visited, and never both. -/
theorem count_entry (path : Visits known graph (.start graph initial) visits last)
    (wellFormed : graph.WellFormed) : (visits ++ last.pending).count graph.entry = 1 := by
  refine path.induction (motive := fun past later =>
    (past ++ later.pending).count graph.entry = 1) ?_ [] ?_
  · intro past later id pending isPending once
    rcases exists_pending_visit_eq known graph id later with ⟨extra, pendingEq, successors, -⟩
    have notExtra : extra.count graph.entry = 0 := by
      refine List.count_eq_zero.2 fun isExtra => ?_
      have edge := Graph.mem_successors.1 (successors _ isExtra)
      exact wellFormed.target_ne_entry _ edge rfl
    rw [pendingEq, isPending, List.tail_cons]
    rw [isPending] at once
    simp only [List.count_append, List.count_cons, List.count_nil] at once ⊢
    omega
  · exact List.count_eq_one_of_mem (Search.nodup_reached _ _ _) wellFormed.entry_mem_reachable

/-- The entry is visited first and never again. -/
theorem count_entry_visits (path : Visits known graph (.start graph initial) visits last)
    (wellFormed : graph.WellFormed) (goesOn : visits ≠ [] ∨ last.pending = []) :
    visits.count graph.entry = 1 := by
  have once := path.count_entry wellFormed
  rw [List.count_append] at once
  rcases goesOn with isVisited | nonePending
  · cases path with
    | none => exact absurd rfl isVisited
    | @step _ _ id pending visits isPending rest =>
        have listed : graph.reachable = [] ++ id :: pending := isPending
        have isEntry : id = graph.entry := by
          simpa using Search.exists_source_of_reached listed
        subst isEntry
        rw [List.count_cons_self] at once ⊢
        lia
  · rwa [nonePending, List.count_nil] at once

/-- Visits can be divided at any time. -/
theorem exists_of_append (path : Visits known graph progress (first ++ second) last) :
    ∃ middle, Visits known graph progress first middle ∧
      Visits known graph middle second last := by
  induction first generalizing progress with
  | nil => exact ⟨progress, .none progress, path⟩
  | cons id first ih =>
      cases path with
      | step isPending rest =>
          rcases ih rest with ⟨middle, path, path'⟩
          exact ⟨middle, .step isPending path, path'⟩

end Visits

/-! ### The visits of an iteration -/

/-- An iteration visits blocks one after the other until none is pending or the limit is reached;
that blocks are pending at the limit counts as an iteration more. -/
theorem exists_visits_replay (known : Node → DefUse) (graph : Graph) (limit : Nat)
    (progress : Progress) : ∃ visits last, Visits known graph progress visits last ∧
      (visits.length = limit ∨ last.pending = []) ∧
      replay known graph limit progress =
        { last with iterations := last.iterations + if last.pending.isEmpty then 0 else 1 } := by
  induction limit generalizing progress with
  | zero => exact ⟨[], progress, .none progress, .inl rfl, rfl⟩
  | succ limit ih =>
      rw [replay]
      split
      · next isDone =>
          refine ⟨[], progress, .none progress, .inr isDone, ?_⟩
          rw [isDone, List.isEmpty_nil, if_pos rfl, ← isDone]
          rfl
      · next id pending isPending =>
          rw [← visit_eq isPending]
          rcases ih (visit known graph id progress) with ⟨visits, last, path, ends, replayed⟩
          exact ⟨id :: visits, last, .step isPending path,
            ends.imp_left fun atLimit => by rw [List.length_cons, atLimit], replayed⟩

end Analysis

end FlowAnalysis
