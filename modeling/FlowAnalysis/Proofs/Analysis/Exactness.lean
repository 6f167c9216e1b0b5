import FlowAnalysis.Proofs.Analysis.Reaching

/-!
# What an analysis reports

A reported edge should stand for a binding that is in force on a path where the path meets a
statement, and a reference that no such path reaches should count as undefined. A block that is
processed again, however, starts from what it has stored itself, so what is bound at its end also
reaches its front. Nothing else goes wrong: every edge stands for a path or for such a round.
-/

namespace FlowAnalysis

namespace Analysis

/-- A path meets a statement that needs a name while a binding of the name is in force. -/
inductive Justified (known : Node → DefUse) (graph : Graph) (source target : Reference) : Prop where
  | intro {blocks : List BlockId} {last : BlockId} {earlier later : List Node} {statement : Node}
      {level : Level} (path : graph.Path graph.entry blocks last)
      (traceEq : graph.trace blocks = earlier ++ statement :: later)
      (inForce : InForce known .empty level earlier source)
      (isTarget : target ∈ ((known statement).level level).toList)
      (sameName : source.name = target.name)

/-- A block that is processed more than once binds a name that one of its statements needs, and
nothing before that statement in the block rebinds it. -/
inductive Wraps (known : Node → DefUse) (graph : Graph) (visits : List BlockId)
    (source target : Reference) : Prop where
  | intro {id : BlockId} {front back : List Node} {statement : Node} {level : Level}
      (revisited : 2 ≤ visits.count id)
      (statementsEq : graph.statements id = front ++ statement :: back)
      (inForce : InForce known .empty level (graph.statements id) source)
      (untouched : ∀ earlier ∈ front, ¬(known earlier).Rebinds level source.name)
      (isTarget : target ∈ ((known statement).level level).toList)
      (sameName : source.name = target.name)

/-- A binding is in force at the start of a block on some path. -/
def Enters (known : Node → DefUse) (graph : Graph) (id : BlockId) (level : Level)
    (reference : Reference) : Prop :=
  ∃ blocks, graph.Path graph.entry (blocks ++ [id]) id ∧
    InForce known .empty level (graph.trace blocks) reference

/-- A binding is in force at the end of a block on some path. -/
def Leaves (known : Node → DefUse) (graph : Graph) (id : BlockId) (level : Level)
    (reference : Reference) : Prop :=
  ∃ blocks, graph.Path graph.entry (blocks ++ [id]) id ∧
    InForce known .empty level (graph.trace blocks ++ graph.statements id) reference

variable {known : Node → DefUse} {graph : Graph} {visits past : List BlockId} {id : BlockId}
  {level : Level} {reference source target : Reference}

theorem Wraps.mono (wraps : Wraps known graph past source target) (id : BlockId) :
    Wraps known graph (past ++ [id]) source target := by
  rcases wraps with ⟨revisited, statementsEq, inForce, untouched, isTarget, sameName⟩
  have moreOften := (List.sublist_append_left past [id]).count_le
  exact .intro (Nat.le_trans revisited (moreOften _)) statementsEq inForce untouched isTarget sameName

theorem Leaves.enters {next : BlockId} (leaves : Leaves known graph id level reference)
    (edge : next ∈ graph.successors id) : Enters known graph next level reference := by
  rcases leaves with ⟨blocks, path, inForce⟩
  refine ⟨blocks ++ [id], path.extend edge, ?_⟩
  simpa using inForce

/-- What is in force at the end of a block is bound in the block, or it was in force at its
start. -/
theorem Leaves.bound_or_enters (leaves : Leaves known graph id level reference) :
    InForce known .empty level (graph.statements id) reference ∨
      Enters known graph id level reference := by
  rcases leaves with ⟨blocks, path, inForce⟩
  rcases inForce.of_append with isBound | ⟨inForce, -⟩
  · exact .inl isBound
  · exact .inr ⟨blocks, path, inForce⟩

theorem Enters.leaves (enters : Enters known graph id level reference)
    (untouched : ∀ statement ∈ graph.statements id,
      ¬(known statement).Rebinds level reference.name) :
    Leaves known graph id level reference := by
  rcases enters with ⟨blocks, path, inForce⟩
  exact ⟨blocks, path, inForce.append untouched⟩

theorem leaves_of_inForce (wellFormed : graph.WellFormed) (isReachable : id ∈ graph.reachable)
    (inForce : InForce known .empty level (graph.statements id) reference) :
    Leaves known graph id level reference := by
  rcases wellFormed.mem_reachable_iff.1 isReachable with ⟨blocks, path⟩
  rcases path.eq_append_target with ⟨before, rfl⟩
  exact ⟨before, path, inForce.prepend⟩

theorem Justified.of_block {blocks : List BlockId} {front back : List Node} {statement : Node}
    (path : graph.Path graph.entry (blocks ++ [id]) id)
    (statementsEq : graph.statements id = front ++ statement :: back)
    (inForce : InForce known .empty level (graph.trace blocks ++ front) source)
    (isTarget : target ∈ ((known statement).level level).toList)
    (sameName : source.name = target.name) : Justified known graph source target := by
  have traceEq : graph.trace (blocks ++ [id]) =
      (graph.trace blocks ++ front) ++ statement :: back := by
    simp [statementsEq]
  exact .intro path traceEq inForce isTarget sameName

/-! ### Where the states come from -/

/-- What holds of the blocks processed so far and of the progress made: states and edges stand for
paths, or for blocks that are processed again. -/
structure Traced (known : Node → DefUse) (graph : Graph) (past : List BlockId)
    (progress : Progress) : Prop where
  leaves : ∀ {id level reference}, reference ∈ ((progress.state id).level level).toList →
    id ∈ past ∧ Leaves known graph id level reference
  stored : ∀ {id level reference}, id ∈ past →
    InForce known .empty level (graph.statements id) reference →
    reference ∈ ((progress.state id).level level).toList
  flows : ∀ flow ∈ progress.dataflows.toList, ∃ source target,
    (Justified known graph source target ∨ Wraps known graph past source target) ∧
      flow = .between source target
  reached : ∀ target ∈ progress.defined.toList, ∃ source,
    Justified known graph source target ∨ Wraps known graph past source target
  wraps : ∀ {source target}, Wraps known graph past source target → progress.Draws source target

theorem traced_start (wellFormed : graph.WellFormed) :
    Traced known graph [] (.start graph .empty) where
  leaves := by
    intro id level reference isMember
    rw [state_start wellFormed] at isMember
    split at isMember
    · rcases DefUse.mem_or_binds_of_mem_update isMember with absent | binds
      · simp at absent
      · exact absurd (binds_initial.1 binds).2 List.not_mem_nil
    · simp at isMember
  stored := fun isVisited => absurd isVisited List.not_mem_nil
  flows := fun _ absent => absurd absent List.not_mem_nil
  reached := fun _ absent => absurd absent List.not_mem_nil
  wraps := by
    rintro source target ⟨revisited, -, -, -, -, -⟩
    simp at revisited

section

variable {progress : Progress} (traced : Traced known graph past progress)

include traced

/-- What arrives at a block is in force at its start, or the block has been processed before and
binds it. -/
theorem Traced.enters_or_of_mem_arriving
    (isMember : reference ∈ ((progress.arriving graph id).level level).toList) :
    Enters known graph id level reference ∨
      id ∈ past ∧ InForce known .empty level (graph.statements id) reference := by
  rcases mem_arriving isMember with isStored | ⟨before, isBefore, isPassedOn⟩
  · rcases traced.leaves isStored with ⟨isVisited, leaves⟩
    rcases leaves.bound_or_enters with inForce | enters
    · exact .inr ⟨isVisited, inForce⟩
    · exact .inl enters
  · have edge := Graph.mem_successors.2 (Graph.mem_predecessors.1 isBefore)
    exact .inl ((traced.leaves isPassedOn).2.enters edge)

/-- What a block passes round meets when the block is processed again. -/
theorem Traced.wraps_or_meets (wraps : Wraps known graph (past ++ [id]) source target) :
    Wraps known graph past source target ∨
      Meets known (progress.arriving graph id) (graph.statements id) source target := by
  rcases wraps with ⟨revisited, statementsEq, inForce, untouched, isTarget, sameName⟩
  rename_i block front back statement level
  rw [List.count_append] at revisited
  by_cases isBlock : block = id
  · subst isBlock
    have isVisited : block ∈ past := by
      rw [List.count_singleton_self] at revisited
      exact List.count_pos_iff.1 (by omega)
    have arrives : source ∈ ((progress.arriving graph block).level level).toList :=
      mem_arriving_of_mem_stored (traced.stored isVisited inForce)
    have remains := mem_stateAfter_of_untouched arrives untouched
    rw [statementsEq]
    exact .inr (.intro (DefUse.mem_reachingPairs.2 ⟨level, isTarget, remains, sameName⟩))
  · have onlyBefore : [id].count block = 0 :=
      List.count_eq_zero.2 fun same => isBlock (List.mem_singleton.1 same)
    rw [onlyBefore] at revisited
    exact .inl (.intro revisited statementsEq inForce untouched isTarget sameName)

variable (wellFormed : graph.WellFormed)
  (owned : ∀ statement, (known statement).OwnedAt statement.key)
  (plain : ∀ statement ∈ graph.statements id, (known statement).HasPlainNames)
  (isReachable : id ∈ graph.reachable)

include owned

theorem Traced.isBinding_arriving :
    ∀ reference ∈ ((progress.arriving graph id).level level).toList, reference.level ≠ .use := by
  intro reference isMember
  rcases traced.enters_or_of_mem_arriving isMember with ⟨_, -, inForce⟩ | ⟨-, inForce⟩
  · exact inForce.level_ne_use owned
  · exact inForce.level_ne_use owned

include wellFormed plain isReachable

/-- What meets in a block is justified, or the block passes it round. -/
theorem Traced.justified_or_wraps
    (meets : Meets known (progress.arriving graph id) (graph.statements id) source target) :
    Justified known graph source target ∨ Wraps known graph (past ++ [id]) source target := by
  rcases meets.exists_split with
    ⟨front, statement, back, level, statementsEq, isTarget, isSource, sameName⟩
  have frontPlain : ∀ statement ∈ front, (known statement).HasPlainNames := by
    intro statement isEarlier
    apply plain
    rw [statementsEq]
    exact List.mem_append_left _ isEarlier
  rcases inForce_or_of_mem_stateAfter owned frontPlain (traced.isBinding_arriving owned)
    isSource with inForce | ⟨arrived, untouched⟩
  · rcases wellFormed.mem_reachable_iff.1 isReachable with ⟨blocks, path⟩
    rcases path.eq_append_target with ⟨before, rfl⟩
    exact .inl (.of_block path statementsEq inForce.prepend isTarget sameName)
  · rcases traced.enters_or_of_mem_arriving arrived with ⟨blocks, path, inForce⟩ |
      ⟨isVisited, inForce⟩
    · exact .inl (.of_block path statementsEq (inForce.append untouched) isTarget sameName)
    · have visitedBefore := List.count_pos_iff.2 isVisited
      refine .inr (.intro ?_ statementsEq inForce untouched isTarget sameName)
      rw [List.count_append, List.count_singleton_self]
      omega

/-- What leaves a block when it is processed is in force at its end. -/
theorem Traced.leaves_of_mem_leaving
    (isMember : reference ∈ ((leaving known graph id progress).level level).toList) :
    Leaves known graph id level reference := by
  rcases inForce_or_of_mem_stateAfter owned plain (traced.isBinding_arriving owned) isMember
    with inForce | ⟨arrived, untouched⟩
  · exact leaves_of_inForce wellFormed isReachable inForce
  · rcases traced.enters_or_of_mem_arriving arrived with enters | ⟨-, inForce⟩
    · exact enters.leaves untouched
    · exact leaves_of_inForce wellFormed isReachable inForce

theorem Traced.replayBlock (inRange : id < progress.states.length)
    (arrivingPlain : (progress.arriving graph id).HasPlainNames) :
    Traced known graph (past ++ [id]) (replayBlock known graph id progress) where
  leaves := by
    intro other level reference isMember
    rw [state_replayBlock inRange] at isMember
    split at isMember
    · next changed =>
        rcases changed with ⟨rfl, -⟩
        exact ⟨by simp, traced.leaves_of_mem_leaving wellFormed owned plain isReachable isMember⟩
    · rcases traced.leaves isMember with ⟨isVisited, leaves⟩
      exact ⟨List.mem_append_left _ isVisited, leaves⟩
  stored := by
    intro other level reference isVisited inForce
    have isLeaving : other = id →
        reference ∈ ((leaving known graph id progress).level level).toList := by
      rintro rfl
      exact inForce.mem_stateAfter owned plain arrivingPlain
    rw [state_replayBlock inRange]
    split
    · next changed => exact isLeaving changed.1
    · next unchanged =>
        rcases List.mem_append.1 isVisited with isVisited | isVisited
        · exact traced.stored isVisited inForce
        -- The stored state has a member with the key, so the block has been processed before.
        · rcases List.mem_singleton.1 isVisited with rfl
          have same : (leaving known graph other progress).sameRefs (progress.state other) = true := by
            simpa using unchanged
          have isKey := KeyedSet.key_mem_keys (isLeaving rfl)
          rw [DefUse.keys_of_sameRefs same] at isKey
          rcases KeyedSet.mem_keys.1 isKey with ⟨earlier, isEarlier, -⟩
          exact traced.stored (traced.leaves isEarlier).1 inForce
  flows := by
    intro flow isMember
    rw [Analysis.replayBlock, Progress.dataflows_store] at isMember
    rcases mem_dataflows_recordAll isMember with early | ⟨source, target, meets, flowEq⟩
    · rcases traced.flows flow early with ⟨source, target, drawn, flowEq⟩
      exact ⟨source, target, drawn.imp_right fun wraps => wraps.mono id, flowEq⟩
    · exact ⟨source, target,
        traced.justified_or_wraps wellFormed owned plain isReachable meets, flowEq⟩
  reached := by
    intro target isMember
    rw [Analysis.replayBlock, Progress.defined_store] at isMember
    rcases mem_defined_recordAll isMember with early | ⟨source, meets⟩
    · rcases traced.reached target early with ⟨source, drawn⟩
      exact ⟨source, drawn.imp_right fun wraps => wraps.mono id⟩
    · exact ⟨source, traced.justified_or_wraps wellFormed owned plain isReachable meets⟩
  wraps := by
    intro source target wraps
    rcases traced.wraps_or_meets wraps with early | meets
    · exact (traced.wraps early).mono extends_replayBlock
    · exact meets.draws_replayBlock

end

/-! ### References that count -/

/-- Blocks that are not pending have had their references counted, as undefined or as reached. -/
def Accounted (known : Node → DefUse) (graph : Graph) (progress : Progress) : Prop :=
  ∀ id ∈ graph.reachable, id ∈ progress.pending ∨
    ∀ statement ∈ graph.statements id, ∀ key ∈ (known statement).allUses.keys,
      progress.Accounts key

theorem Accounted.replayBlock {progress : Progress} {pending : List BlockId}
    (accounted : Accounted known graph progress) (isPending : progress.pending = id :: pending) :
    Accounted known graph (replayBlock known graph id
      { progress with pending, iterations := progress.iterations + 1 }) := by
  intro other isReachable
  rcases accounted other isReachable with wasPending | counted
  · rw [isPending] at wasPending
    rcases List.mem_cons.1 wasPending with rfl | stillPending
    · exact .inr fun statement member key isUse =>
        accounts_replayBlock (.inr ⟨statement, member, isUse⟩)
    · exact .inl (mem_pending_replayBlock.2 (.inl stillPending))
  · exact .inr fun statement member key isUse =>
      accounts_replayBlock (.inl (counted statement member key isUse))

/-! ### Reports -/

/-- Every edge that carries references is justified by a path, and the references of reachable
statements that nothing reaches along a path count as undefined. -/
structure Faithful (known : Node → DefUse) (graph : Graph) (result : AnalysisResult) : Prop where
  justified : ∀ flow ∈ result.dataflows.toList, ∀ source ∈ flow.sourceRef,
    ∀ target ∈ flow.targetRef, Justified known graph source target
  complete : ∀ statement ∈ graph.reachableStatements, ∀ level ≠ .definition,
    ∀ target ∈ ((known statement).level level).toList,
      (∀ source, ¬Justified known graph source target) → result.undefinedRefs.contains target = true

/-- What blocks pass round shows nowhere: the edge that stands for it carries references that a path
justifies, and a reference that nothing reaches along a path is not taken for one that something
reaches or is passed round to. -/
structure Untangled (known : Node → DefUse) (graph : Graph) (visits : List BlockId)
    (result : AnalysisResult) : Prop where
  edges : ∀ source target, Wraps known graph visits source target →
    ∃ flow ∈ result.dataflows.toList, flow.key = (Dataflow.between source target).key ∧
      ∃ source' ∈ flow.sourceRef, ∃ target' ∈ flow.targetRef, Justified known graph source' target'
  references : ∀ statement ∈ graph.reachableStatements, ∀ level ≠ .definition,
    ∀ target ∈ ((known statement).level level).toList,
      (∀ source, ¬Justified known graph source target) → ∀ source other,
      Justified known graph source other ∨ Wraps known graph visits source other →
      other.key ≠ target.key

theorem exists_between_of_mem_result {progress : Progress} {controls : List (Node × Node)}
    {flow : Dataflow} (traced : Traced known graph visits progress)
    (isMember : flow ∈ (progress.result controls).dataflows.toList) (isSource : source ∈ flow.sourceRef)
    (isTarget : target ∈ flow.targetRef) :
    (Justified known graph source target ∨ Wraps known graph visits source target) ∧
      flow = .between source target := by
  rcases KeyedSet.mem_extend isMember with isDrawn | isControl
  · rcases traced.flows flow isDrawn with ⟨source', target', drawn, rfl⟩
    rcases Option.mem_some.1 isSource with rfl
    rcases Option.mem_some.1 isTarget with rfl
    exact ⟨drawn, rfl⟩
  · rcases List.mem_map.1 isControl with ⟨_, -, rfl⟩
    cases isSource

theorem exists_between_of_draws {progress : Progress} (controls : List (Node × Node))
    (traced : Traced known graph visits progress) (draws : progress.Draws source target) :
    ∃ source' target', Dataflow.between source' target' ∈
        (progress.result controls).dataflows.toList ∧
      (Dataflow.between source' target').key = (Dataflow.between source target).key := by
  rcases KeyedSet.mem_keys.1 (KeyedSet.contains_iff.1 draws.1) with ⟨flow, isMember, sameKey⟩
  rcases traced.flows flow isMember with ⟨source', target', -, rfl⟩
  exact ⟨source', target', Progress.mem_result isMember, sameKey⟩

section

variable (wellFormed : graph.WellFormed)
  (owned : ∀ statement, (known statement).OwnedAt statement.key)
  (plain : ∀ reference, Occurs known graph .empty reference → reference.HasPlainName)

include wellFormed owned plain

theorem Run.traced {last : Progress} (run : Run known graph (.start graph .empty) visits last) :
    Traced known graph visits last ∧ Accounted known graph last ∧ last.pending = [] := by
  have start : Covered known graph .empty (.start graph .empty) ∧
      Traced known graph [] (.start graph .empty) ∧ Accounted known graph (.start graph .empty) :=
    ⟨covered_start wellFormed, traced_start wellFormed, fun _ isReachable => .inl isReachable⟩
  have kept := run.induction (motive := fun past progress => Covered known graph .empty progress ∧
    Traced known graph past progress ∧ Accounted known graph progress) ?_ [] start
  · exact ⟨kept.1.2.1, kept.1.2.2, kept.2⟩
  rintro past progress id pending isPending ⟨covered, traced, accounted⟩
  have isReachable : id ∈ graph.reachable := covered.pending (isPending ▸ List.mem_cons_self)
  have inRange : id < progress.states.length := by
    rw [covered.length]
    exact wellFormed.lt_size_of_mem_reachable isReachable
  have blockPlain : ∀ statement ∈ graph.statements id, (known statement).HasPlainNames :=
    fun statement member level reference isMember => plain reference
      (.inr ⟨statement, statements_subset_reachableStatements isReachable member, level, isMember⟩)
  have popped : Traced known graph past
      { progress with pending, iterations := progress.iterations + 1 } := { traced with }
  have arrivingPlain : (progress.arriving graph id).HasPlainNames :=
    fun level reference isMember =>
      plain reference (occurring_arriving covered.occurring id level reference isMember)
  exact ⟨covered.replayBlock wellFormed isPending,
    popped.replayBlock wellFormed owned blockPlain isReachable inRange arrivingPlain,
    accounted.replayBlock isPending⟩

/-- A run reports what it should exactly if nothing that blocks pass round shows. -/
theorem Run.faithful_iff_untangled {last : Progress}
    (run : Run known graph (.start graph .empty) visits last) (controls : List (Node × Node)) :
    Faithful known graph (last.result controls) ↔
      Untangled known graph visits (last.result controls) := by
  rcases run.traced wellFormed owned plain with ⟨traced, accounted, nonePending⟩
  have covered := (run.covered wellFormed).1
  constructor
  · intro faithful
    refine ⟨?_, ?_⟩
    · intro source target wraps
      rcases exists_between_of_draws controls traced (traced.wraps wraps) with
        ⟨source', target', isMember, sameKey⟩
      exact ⟨_, isMember, sameKey, source', rfl, target', rfl,
        faithful.justified _ isMember source' rfl target' rfl⟩
    · intro statement isReachable level notDefinition target isTarget unreached source other drawn
        sameKey
      have isUndefined := faithful.complete statement isReachable level notDefinition target isTarget
        unreached
      rw [KeyedSet.contains_iff] at isUndefined
      have isDefined : other.key ∈ last.defined.keys := by
        rcases drawn with justified | wraps
        · rcases justified with ⟨path, traceEq, inForce, isOther, sameName⟩
          rcases covered.draws plain wellFormed nonePending path traceEq inForce isOther sameName with
            ⟨_, -, -, draws⟩
          exact draws.2
        · exact (traced.wraps wraps).2
      rw [sameKey] at isDefined
      exact covered.separated _ isDefined isUndefined
  · intro untangled
    refine ⟨?_, ?_⟩
    · intro flow isMember source isSource target isTarget
      rcases exists_between_of_mem_result traced isMember isSource isTarget with ⟨drawn, rfl⟩
      refine drawn.elim id fun wraps => ?_
      rcases untangled.edges source target wraps with
        ⟨flow, isOther, sameKey, source', isSource', target', isTarget', justified⟩
      rcases KeyedSet.eq_of_key_eq isOther isMember sameKey with rfl
      rcases Option.mem_some.1 isSource' with rfl
      rcases Option.mem_some.1 isTarget' with rfl
      exact justified
    · intro statement isReachable level notDefinition target isTarget unreached
      rcases List.mem_flatMap.1 isReachable with ⟨id, idReachable, inBlock⟩
      have isUse : target.key ∈ (known statement).allUses.keys := by
        have isKey := KeyedSet.key_mem_keys isTarget
        cases level
        · exact absurd rfl notDefinition
        · exact KeyedSet.mem_keys_union.2 (.inl isKey)
        · exact KeyedSet.mem_keys_union.2 (.inr isKey)
      have counted := (accounted id idReachable).resolve_left (nonePending ▸ List.not_mem_nil)
      refine KeyedSet.contains_iff.2 ?_
      refine (counted statement inBlock _ isUse).resolve_right fun isDefined => ?_
      rcases KeyedSet.mem_keys.1 isDefined with ⟨other, isReached, sameKey⟩
      rcases traced.reached other isReached with ⟨source, drawn⟩
      exact untangled.references statement isReachable level notDefinition target isTarget unreached
        source other drawn sameKey

end

theorem run_module {root : Node} (built : Graph.ofRoot root = .ok graph) (analyzer : Analyzer) :
    (Analysis.module root).run analyzer = (Analysis.graph graph .empty).run analyzer := by
  have builds : (liftM (Graph.ofRoot root) : Analysis Graph).run analyzer =
      .ok (graph, analyzer) := by
    rw [built]
    rfl
  exact run_bind builds

/-- The analysis of a program succeeds, and if it converges, it reports only what paths justify and
forgets nothing that is undefined exactly if nothing shows that blocks pass round to themselves when
they are processed again. -/
theorem exists_module_faithful_iff {analyzer : Analyzer} (arises : analyzer.Arises) {root : Node}
    {graph : Graph} (built : Graph.ofRoot root = .ok graph) :
    ∃ result after, (Analysis.module root).run analyzer = .ok (result, after) ∧
      (result.converged = true →
        (∀ statement ∈ graph.reachableStatements,
          after.cached? statement = some (after.known statement) ∧
          (after.known statement).OwnedAt statement.key) ∧
        ((∀ reference, Occurs after.known graph .empty reference → reference.HasPlainName) →
          ∃ visits last controls, Run after.known graph (.start graph .empty) visits last ∧
            result = last.result controls ∧
            (Faithful after.known graph result ↔ Untangled after.known graph visits result))) := by
  have wellFormed := (Graph.ofRoot_laidOut built).wellFormed
  rcases arises.exists_run built .empty with ⟨result, after, run, sound, converges⟩
  refine ⟨result, after, (run_module built analyzer).trans run, fun converged => ?_⟩
  rcases converges converged with ⟨allKnown, visits, last, controls, -, isRun, rfl⟩
  refine ⟨fun statement member => ⟨allKnown statement member, sound.ownedAt_known statement⟩, ?_⟩
  intro plain
  exact ⟨visits, last, controls, isRun, rfl,
    isRun.faithful_iff_untangled wellFormed sound.ownedAt_known plain controls⟩

/-- What is drawn is reported. -/
theorem mem_dataflows_of_mem_replay {analyzer after : Analyzer} (arises : analyzer.Arises)
    {root : Node} {initial : RefSet} {result : AnalysisResult}
    (built : Graph.ofRoot root = .ok graph)
    (run : (Analysis.graph graph initial).run analyzer = .ok (result, after))
    (converged : result.converged = true) {flow : Dataflow}
    (isDrawn : flow ∈
      (replay after.known graph analyzer.iterationLimit (.start graph initial)).dataflows.toList) :
    flow ∈ result.dataflows.toList := by
  rcases arises.exists_run built initial with ⟨result', after', run', -, converges⟩
  rw [run] at run'
  rcases run' with ⟨⟩
  rcases converges converged with ⟨-, -, progress, controls, rfl, -, rfl⟩
  exact Progress.mem_result isDrawn

/-- Two statements of which the second one reads what the first one binds. -/
def straightStatements : List Node :=
  [assigning 1 "x" (.literal (.natural 1)), assigning 2 "y" (.name "x")]

/-- Nothing is passed round where there are no branches. -/
theorem faithful_straightStatements : ∃ result after,
    (Analysis.module ⟨.module straightStatements, ⟨1, 0, 3, 0, none⟩⟩).run (.ofSpecs []) =
      .ok (result, after) ∧
    (∃ flow ∈ result.dataflows.toList, flow.key = "1:0-1:5->2:0-2:5") ∧
    Faithful after.known (.ofStatements straightStatements) result := by
  have built : Graph.ofRoot ⟨.module straightStatements, ⟨1, 0, 3, 0, none⟩⟩ =
      .ok (.ofStatements straightStatements) := rfl
  have arises : (Analyzer.ofSpecs []).Arises := .new (.ofSpecs []) true 10000
  rcases exists_module_faithful_iff arises built with ⟨result, after, run, reports⟩
  have graphRun := (run_module built _).symm.trans run
  have facts := holds_of_run
    (fun outcome : AnalysisResult × Analyzer => outcome.1.converged = true ∧
      (∃ flow ∈ (replay outcome.2.known (.ofStatements straightStatements)
        (Analyzer.ofSpecs []).iterationLimit
        (.start (.ofStatements straightStatements) .empty)).dataflows.toList,
        flow.key = "1:0-1:5->2:0-2:5") ∧
      (∀ statement ∈ straightStatements, ∀ level ∈ Level.all,
        ∀ reference ∈ ((outcome.2.known statement).level level).toList,
          ':' ∉ reference.name.toList) ∧
      (∃ reference ∈ (outcome.2.known (assigning 1 "x" (.literal (.natural 1)))).definitions.toList,
        reference.name = "x") ∧
      (∀ level ∈ [Level.update, Level.use], ∀ reference ∈
        ((outcome.2.known (assigning 1 "x" (.literal (.natural 1)))).level level).toList, False) ∧
      ∀ level ∈ [Level.update, Level.use], ∀ reference ∈
        ((outcome.2.known (assigning 2 "y" (.name "x"))).level level).toList,
        reference.name = "x") (by decide +kernel) graphRun
  rcases facts with ⟨converged, ⟨flow, isDrawn, flowKey⟩, plain, ⟨binding, isBound, bindingName⟩,
    noTarget, targetName⟩
  have statementsOf : ∀ id, (Graph.ofStatements straightStatements).statements id =
      if id = 1 then straightStatements else [] := by
    rintro (_ | _ | id) <;> rfl
  have onlyStatements : (Graph.ofStatements straightStatements).reachableStatements =
      straightStatements := rfl
  have occursPlain : ∀ reference,
      Occurs after.known (.ofStatements straightStatements) .empty reference →
      reference.HasPlainName := by
    rintro reference (absent | ⟨statement, isReachable, level, isMember⟩)
    · exact absurd absent List.not_mem_nil
    · rw [onlyStatements] at isReachable
      exact plain statement isReachable level level.mem_all reference isMember
  have isSeen : ∀ {level}, level ≠ Level.definition → level ∈ [Level.update, Level.use] ∧
      (after.known (assigning 1 "x" (.literal (.natural 1)))).Binds level binding := by
    intro level notDefinition
    cases level
    · exact absurd rfl notDefinition
    · exact ⟨by decide, .definition, by decide, isBound⟩
    · exact ⟨by decide, .definition, by decide, isBound⟩
  rcases (reports converged).2 occursPlain with ⟨visits, last, controls, -, -, faithful_iff⟩
  have noWraps : ∀ source target,
      ¬Wraps after.known (.ofStatements straightStatements) visits source target := by
    rintro source target ⟨-, statementsEq, inForce, untouched, isTarget, sameName⟩
    rename_i id front back statement level
    rcases inForce.exists_binds with ⟨_, -, _, isGenerated, -⟩
    have notDefinition : level ≠ .definition := by
      rintro rfl
      exact absurd isGenerated List.not_mem_nil
    rw [statementsOf] at statementsEq
    split at statementsEq
    · rcases front with _ | ⟨first, front⟩
      · rcases (List.cons.inj statementsEq).1 with rfl
        exact noTarget level (isSeen notDefinition).1 target isTarget
      · rcases List.cons.inj statementsEq with ⟨rfl, restEq⟩
        have isReader : statement ∈ [assigning 2 "y" (.name "x")] := by
          rw [restEq]
          simp
        rcases List.mem_singleton.1 isReader with rfl
        have isRead := targetName level (isSeen notDefinition).1 target isTarget
        exact untouched _ List.mem_cons_self ⟨binding, (isSeen notDefinition).2,
          bindingName.trans (sameName.trans isRead).symm⟩
    · simp at statementsEq
  refine ⟨result, after, run,
    ⟨flow, mem_dataflows_of_mem_replay arises built graphRun converged isDrawn, flowKey⟩,
    faithful_iff.2 ⟨fun source target wraps => absurd wraps (noWraps source target), ?_⟩⟩
  intro statement isReachable level notDefinition target isTarget unreached
  rw [onlyStatements] at isReachable
  rcases List.mem_cons.1 isReachable with rfl | isReader
  · exact (noTarget level (isSeen notDefinition).1 target isTarget).elim
  · rcases List.mem_singleton.1 isReader with rfl
    have path : (Graph.ofStatements straightStatements).Path 1 ([] ++ [1]) 1 := .single 1
    have inForce : InForce after.known .empty level
        ((Graph.ofStatements straightStatements).trace [] ++
          [assigning 1 "x" (.literal (.natural 1))]) binding := by
      rw [Graph.trace_nil]
      exact .bound (isSeen notDefinition).2 (by simp)
    have isRead := targetName level (isSeen notDefinition).1 target isTarget
    have justified := Justified.of_block path (statementsOf 1) inForce isTarget
      (bindingName.trans isRead.symm)
    exact absurd justified (unreached binding)

/-- A statement that reads a name which the statement after it binds, behind nested conditionals. -/
def conditionalStatements : List Node :=
  [⟨.conditional (onLine 1 3 4 (.name "c"))
      [⟨.conditional (onLine 2 5 6 (.name "d"))
          [onLine 3 4 9
            (.assign none [onLine 3 4 5 (.name "a")] [onLine 3 8 9 (.literal (.natural 1))])]
          [] none, ⟨2, 2, 3, 9, none⟩⟩]
      [] none, ⟨1, 0, 3, 9, none⟩⟩,
    assigning 4 "y" (.name "x"), assigning 5 "x" (.literal (.natural 1))]

/-- Both statements stand in one block, at which control ends. -/
theorem not_justified_conditionalStatements
    (owned : ∀ statement, (known statement).OwnedAt statement.key)
    (sourceOwner : source.owner.key = "5:0-5:5") (targetOwner : target.owner.key = "4:0-4:5") :
    ¬Justified known (.ofStatements conditionalStatements) source target := by
  rintro ⟨path, traceEq, inForce, isTarget, -⟩
  rename_i blocks last earlier later reader level
  rcases inForce.exists_binds with ⟨writer, isEarlier, binds⟩
  have readerKey : reader.key = "4:0-4:5" :=
    (owned reader level target isTarget).2.symm.trans targetOwner
  have writerKey : writer.key = "5:0-5:5" :=
    (binds.owner_key (owned writer)).symm.trans sourceOwner
  have inJoin : ∀ block ∈ (Graph.ofStatements conditionalStatements).reachable,
      ∀ statement ∈ (Graph.ofStatements conditionalStatements).statements block,
      statement.key = "4:0-4:5" ∨ statement.key = "5:0-5:5" → block = 7 := by
    decide +kernel
  have built : Graph.ofRoot ⟨.module conditionalStatements, default⟩ =
      .ok (.ofStatements conditionalStatements) := rfl
  have wellFormed := (Graph.ofRoot_laidOut built).wellFormed
  have areReachable : ∀ block ∈ blocks, block ∈ (Graph.ofStatements conditionalStatements).reachable :=
    fun _ member => wellFormed.mem_reachable_of_mem path wellFormed.entry_mem_reachable member
  rcases Graph.exists_of_trace_eq traceEq with
    ⟨before, block, after, front, back, rfl, statementsEq, rfl⟩
  have isJoin : block = 7 :=
    inJoin block (areReachable block (by simp)) reader (by simp [statementsEq]) (.inl readerKey)
  subst isJoin
  rcases List.mem_append.1 isEarlier with inTrace | inFront
  · rcases List.mem_flatMap.1 inTrace with ⟨block, isBefore, inBlock⟩
    have isJoin : block = 7 :=
      inJoin block (areReachable block (by simp [isBefore])) writer inBlock (.inr writerKey)
    subst isJoin
    rcases List.append_of_mem isBefore with ⟨start, between, rfl⟩
    rw [List.append_assoc, List.cons_append] at path
    have noEdge : (Graph.ofStatements conditionalStatements).successors 7 = [] := by decide +kernel
    exact absurd (path.eq_nil_of_successors_eq_nil noEdge) (by simp)
  · rcases List.append_of_mem inFront with ⟨start, between, rfl⟩
    have keys : ((Graph.ofStatements conditionalStatements).statements 7).map Node.key =
        ["4:0-4:5", "5:0-5:5"] := by decide +kernel
    rw [statementsEq] at keys
    rcases start with _ | ⟨first, start⟩
    · simp [readerKey, writerKey] at keys
    · have lengths := congrArg List.length keys
      simp only [List.length_map, List.length_append, List.length_cons, List.length_nil] at lengths
      omega

/-- The binding at the end of the last block is reported to reach the statement before it, as the
block is processed again once the branches around it are known. -/
theorem not_faithful_conditionalStatements :
    ((⟨.module conditionalStatements, ⟨1, 0, 6, 0, none⟩⟩ : Node).walk.map Node.key).Nodup ∧
    ∃ result after,
      (Analysis.module ⟨.module conditionalStatements, ⟨1, 0, 6, 0, none⟩⟩).run (.ofSpecs []) =
        .ok (result, after) ∧
      result.converged = true ∧
      ¬Faithful after.known (.ofStatements conditionalStatements) result := by
  refine ⟨by decide +kernel, ?_⟩
  have built : Graph.ofRoot ⟨.module conditionalStatements, ⟨1, 0, 6, 0, none⟩⟩ =
      .ok (.ofStatements conditionalStatements) := rfl
  have arises : (Analyzer.ofSpecs []).Arises := .new (.ofSpecs []) true 10000
  rcases arises.exists_run built .empty with ⟨result, after, run, sound, -⟩
  have facts := holds_of_run
    (fun outcome : AnalysisResult × Analyzer => outcome.1.converged = true ∧
      ∃ flow ∈ (replay outcome.2.known (.ofStatements conditionalStatements)
        (Analyzer.ofSpecs []).iterationLimit
        (.start (.ofStatements conditionalStatements) .empty)).dataflows.toList,
      ∃ source ∈ flow.sourceRef, ∃ target ∈ flow.targetRef,
        source.owner.key = "5:0-5:5" ∧ target.owner.key = "4:0-4:5") (by decide +kernel) run
  rcases facts with ⟨converged, flow, isDrawn, source, isSource, target, isTarget, sourceOwner,
    targetOwner⟩
  refine ⟨result, after, (run_module built _).trans run, converged, fun faithful => ?_⟩
  have isReported := mem_dataflows_of_mem_replay arises built run converged isDrawn
  exact not_justified_conditionalStatements sound.ownedAt_known sourceOwner targetOwner
    (faithful.justified flow isReported source isSource target isTarget)

end Analysis

end FlowAnalysis
