import FlowAnalysis.Proofs.Analysis.NamedScopes
import FlowAnalysis.Proofs.Analysis.Placeholder
import FlowAnalysis.Proofs.Analysis.Recording

/-!
# Statements that are met for the first time

An analysis finds out about a statement when it meets it for the first time, and what it finds out
stays. The block of the statement has not been processed before, so nothing that the block binds has
been passed round to it. Whatever reaches the statement then is in force on a path to it, although
the definitions that arrive later may be missing.
-/

namespace FlowAnalysis

theorem Analyzer.known_eq {analyzer : Analyzer} {statement : Node} {found : DefUse}
    (isKnown : analyzer.cached? statement = some found) : analyzer.known statement = found := by
  rw [known, isKnown]
  rfl

/-- What is known stays the same. -/
theorem Analyzer.Keeps.eq_of_known {analyzer after : Analyzer} {statement : Node}
    {found found' : DefUse} (keeps : analyzer.Keeps after)
    (isKnown : analyzer.cached? statement = some found)
    (isKnown' : after.cached? statement = some found') : found = found' :=
  Option.some.inj ((keeps _ _ isKnown).symm.trans isKnown')

namespace Analysis

variable {known : Node → DefUse} {graph : Graph} {start analyzer final after : Analyzer}
  {statement : Node} {found : DefUse}

/-- Statements define and use what an analyzer knows about them. -/
abbrev Knows (analyzer : Analyzer) (known : Node → DefUse) : Prop :=
  Agrees (fun analyzer statement defUse => analyzer.cached? statement = some defUse) analyzer known

theorem Knows.of_keeps (knows : Knows final known) (keeps : analyzer.Keeps final) :
    Knows analyzer known :=
  fun statement found isKnown => knows statement found (keeps _ _ isKnown)

theorem transfers_defUse : Transfers Anything (fun _ => True)
    (fun analyzer statement defUse => analyzer.cached? statement = some defUse) defUse :=
  defUse_transfers (fun _ _ => trivial) fun _ _ => trivial

/-! ### Bindings that reach a block that has not been processed -/

section

variable {past : List BlockId} {id : BlockId} {progress : Progress} {front back : List Node}
  {reference : Reference} (wellFormed : graph.WellFormed)
  (owned : ∀ statement, (known statement).OwnedAt statement.key)
  (traced : Traced known graph past progress) (isReachable : id ∈ graph.reachable)
  (notVisited : id ∉ past) (statementsEq : graph.statements id = front ++ statement :: back)
  (plain : ∀ statement ∈ front, (known statement).HasPlainNames)

include wellFormed owned traced isReachable notVisited statementsEq plain

/-- What reaches a statement of a block that has not been processed is in force on a path to the
statement. -/
theorem Traced.exists_inForce {level : Level}
    (isMember : reference ∈
      ((stateAfter known (progress.arriving graph id) front).level level).toList) :
    ∃ passed, graph.Reaches passed statement ∧ InForce known .empty level passed reference := by
  have meets : ∀ {blocks}, graph.Path graph.entry (blocks ++ [id]) id →
      graph.Reaches (graph.trace blocks ++ front) statement :=
    fun path => ⟨_, id, back, path, by simp [statementsEq]⟩
  rcases inForce_or_of_mem_stateAfter owned plain (traced.isBinding_arriving owned) isMember with
    inForce | ⟨arrived, untouched⟩
  · rcases wellFormed.mem_reachable_iff.1 isReachable with ⟨blocks, path⟩
    rcases path.eq_append_target with ⟨before, rfl⟩
    exact ⟨_, meets path, inForce.prepend⟩
  · rcases traced.enters_or_of_mem_arriving arrived with ⟨blocks, path, inForce⟩ | ⟨isVisited, -⟩
    · exact ⟨_, meets path, inForce.append untouched⟩
    · exact absurd isVisited notVisited

theorem Traced.exists_inForce_of_mem_defs
    (isMember : reference ∈ (stateAfter known (progress.arriving graph id) front).defs.toList) :
    ∃ passed, graph.Reaches passed statement ∧ InForce known .empty .update passed reference := by
  have reaches : ∀ level, reference ∈
      ((stateAfter known (progress.arriving graph id) front).level level).toList →
      ∃ passed, graph.Reaches passed statement ∧ InForce known .empty level passed reference :=
    fun level => traced.exists_inForce wellFormed owned isReachable notVisited statementsEq plain
  rcases KeyedSet.mem_union.1 isMember with isDefinition | ⟨isUpdate, -⟩
  · rcases reaches .definition isDefinition with ⟨_, -, inForce⟩
    rcases inForce.exists_binds with ⟨_, -, _, isGenerated, -⟩
    exact absurd isGenerated List.not_mem_nil
  · exact reaches .update isUpdate

end

/-! ### The turn of a statement -/

theorem exists_turn_of_runStatements {statements : List Node} {running : DefUse}
    {progress : Progress} {result : DefUse × Progress} (knows : Knows after known)
    (run : (runStatements defUse statements running progress).run analyzer = .ok (result, after))
    (unknown : analyzer.cached? statement = none) (isKnown : after.cached? statement = some found) :
    ∃ front other back before between found', statements = front ++ other :: back ∧
      Learns analyzer front before ∧ before.cached? statement = none ∧
      (defUse other (stateAfter known running front).defs).run before = .ok (found', between) ∧
      between.cached? statement = some found ∧ Learns between back after := by
  induction statements generalizing analyzer running progress with
  | nil =>
      cases run
      cases unknown.symm.trans isKnown
  | cons first rest ih =>
      rcases exists_of_run_bind run with ⟨defUse', between, ran, runRest⟩
      have learnsRest := (learns_of_runStatements runRest).1
      cases known' : between.cached? statement with
      | some found' =>
          rcases learnsRest.keeps.eq_of_known known' isKnown with rfl
          exact ⟨[], first, rest, analyzer, between, defUse', rfl, .nil _, unknown, ran, known',
            learnsRest⟩
      | none =>
          rcases ih runRest known' with ⟨front, other, back, before, between', found', rfl, learns,
            unknown', turn, isKnown', learns'⟩
          have firstEq : known first = defUse' :=
            knows first defUse' (learnsRest.keeps _ _ (keeps_of_run_defUse ran).2)
          subst firstEq
          exact ⟨first :: front, other, back, before, between', found', rfl, .cons ran learns,
            unknown', turn, isKnown', learns'⟩

/-- On its way from one analyzer to another, the analysis of some code comes to a statement that is
not known yet, over a running state, and finds something out about it. -/
structure FirstVisit (code : List Node) (start final : Analyzer) (statement : Node)
    (running : RefSet) (before after : Analyzer) (found : DefUse) : Prop where
  unknown : before.cached? statement = none
  run : (defUse statement running).run before = .ok (found, after)
  earlier : ∃ visited, visited ⊆ (Graph.ofStatements code).reachableStatements ∧
    Learns start visited before
  later : Changes (InBody code) after final
  inForce : ∀ reference ∈ running.toList, ∃ passed,
    (Graph.ofStatements code).Reaches passed statement ∧
      InForce final.known .empty .update passed reference

section

variable {code : List Node}

theorem knows_known (analyzer : Analyzer) : Knows analyzer analyzer.known :=
  fun _ _ isKnown => Analyzer.known_eq isKnown

theorem keeps_of_iterate {limit : Nat} {progress last : Progress}
    (run : (iterate defUse graph limit progress).run analyzer = .ok (last, final)) :
    analyzer.Keeps final :=
  (keeps_of_yields (transfers_defUse.iterate (fun _ _ _ => trivial) limit progress) run).1

theorem next_eq_replayBlock {id : BlockId} {progress next : Progress} (knows : Knows after known)
    (run : (processBlock defUse graph id progress).run analyzer = .ok (next, after)) :
    next = replayBlock known graph id progress :=
  (keeps_of_yields (transfers_defUse.processBlock (fun _ _ => trivial) progress) run).2 known knows

theorem changes_of_iterate {limit : Nat} {progress last : Progress}
    (run : (iterate defUse (.ofStatements code) limit progress).run analyzer = .ok (last, final)) :
    Changes (InBody code) analyzer final := by
  exact (iterate_takes (fun _ _ isPlaced => stays_of_mem_statements isPlaced) limit progress run).1

variable (owned : ∀ statement, (final.known statement).OwnedAt statement.key)
  (plain : ∀ reference, Occurs final.known (.ofStatements code) .empty reference →
    reference.HasPlainName)
  {past : List BlockId} {visited : List Node} {progress : Progress}
  (traced : Traced final.known (.ofStatements code) past progress)
  (pastKnown : ∀ id ∈ past, ∀ statement ∈ (Graph.ofStatements code).statements id,
    ∃ found, analyzer.cached? statement = some found)
  (areReachable : visited ⊆ (Graph.ofStatements code).reachableStatements)
  (learns : Learns start visited analyzer) (unknown : analyzer.cached? statement = none)

include owned plain traced pastKnown areReachable learns unknown

/-- If a statement becomes known while a block is processed, it becomes known when a statement of
the block is visited for the first time. -/
theorem exists_firstVisit_of_processBlock {id : BlockId} {next : Progress}
    (isReachable : id ∈ (Graph.ofStatements code).reachable)
    (run : (processBlock defUse (.ofStatements code) id progress).run analyzer = .ok (next, after))
    (keeps : after.Keeps final) (changes : Changes (InBody code) after final)
    (isKnown : after.cached? statement = some found) :
    ∃ other ∈ (Graph.ofStatements code).statements id, ∃ running before between found',
      FirstVisit code start final other running before between found' ∧
      before.cached? statement = none ∧ between.cached? statement = some found := by
  have wellFormed : (Graph.ofStatements code).WellFormed := (Graph.ofCommands_laidOut _).wellFormed
  have inBlock := statements_subset_reachableStatements isReachable
  rcases exists_of_run_bind run with ⟨_, _, ran, ⟨⟩⟩
  rcases exists_turn_of_runStatements ((knows_known final).of_keeps keeps) ran unknown isKnown with
    ⟨front, other, back, before, between, found', statementsEq, learnsFront, unknown', turn,
      isKnown', learnsBack⟩
  have isPlaced : other ∈ (Graph.ofStatements code).statements id := by
    simp [statementsEq]
  have frontPlaced : front ⊆ (Graph.ofStatements code).statements id := by
    rw [statementsEq]
    exact List.subset_append_left _ _
  have otherUnknown : before.cached? other = none := by
    cases otherKnown : before.cached? other with
    | none => rfl
    | some found =>
        rw [run_defUse_of_known otherKnown] at turn
        rcases turn with ⟨⟩
        cases unknown'.symm.trans isKnown'
  have notVisited : id ∉ past := by
    intro isVisited
    rcases pastKnown id isVisited other isPlaced with ⟨found, otherKnown⟩
    cases otherUnknown.symm.trans (learnsFront.keeps _ _ otherKnown)
  have frontPlain : ∀ statement ∈ front, (final.known statement).HasPlainNames :=
    fun _ isEarlier => hasPlainNames_of_reachable plain (inBlock (frontPlaced isEarlier))
  have changesBack : Changes (InBody code) between after := by
    apply learnsBack.changes.mono
    rintro inner ⟨statement, isLater, -, consulted⟩
    exact ⟨id, statement, by simp [statementsEq, isLater], consulted⟩
  refine ⟨other, isPlaced, _, before, between, found', ⟨otherUnknown, turn, ?_,
    changesBack.trans changes, ?_⟩, unknown', isKnown'⟩
  · have frontReachable := List.Subset.trans frontPlaced inBlock
    exact ⟨_, List.append_subset.2 ⟨areReachable, frontReachable⟩, learns.append learnsFront⟩
  · exact fun reference isMember => traced.exists_inForce_of_mem_defs wellFormed owned isReachable
      notVisited statementsEq frontPlain isMember

/-- If a statement becomes known while blocks are processed, it becomes known when some statement is
visited for the first time. -/
theorem exists_firstVisit_of_iterate {limit : Nat} {last : Progress}
    (covered : Covered final.known (.ofStatements code) .empty progress)
    (run : (iterate defUse (.ofStatements code) limit progress).run analyzer = .ok (last, final))
    (isKnown : final.cached? statement = some found) :
    ∃ other ∈ (Graph.ofStatements code).reachableStatements, ∃ running before after found',
      FirstVisit code start final other running before after found' ∧
      before.cached? statement = none ∧ after.cached? statement = some found := by
  have wellFormed : (Graph.ofStatements code).WellFormed := (Graph.ofCommands_laidOut _).wellFormed
  induction limit generalizing progress past visited analyzer with
  | zero =>
      cases run
      cases unknown.symm.trans isKnown
  | succ limit ih =>
      rw [iterate] at run
      split at run
      · cases run
        cases unknown.symm.trans isKnown
      next id pending isPending =>
      rcases exists_of_run_bind run with ⟨next, between, ran, runRest⟩
      have keeps := keeps_of_iterate runRest
      have isReachable : id ∈ (Graph.ofStatements code).reachable :=
        covered.pending (isPending ▸ List.mem_cons_self)
      have inBlock := statements_subset_reachableStatements isReachable
      have popped : Traced final.known (.ofStatements code) past
          { progress with pending, iterations := progress.iterations + 1 } := { traced with }
      cases isKnown' : between.cached? statement with
      | some found' =>
          rcases keeps.eq_of_known isKnown' isKnown with rfl
          rcases exists_firstVisit_of_processBlock owned plain popped pastKnown areReachable learns
            unknown isReachable ran keeps (changes_of_iterate runRest) isKnown' with
            ⟨other, isPlaced, visit⟩
          exact ⟨other, inBlock isPlaced, visit⟩
      | none =>
          have learnsBlock := (learns_of_processBlock ran).1
          have inRange : id < progress.states.length := by
            rw [covered.length]
            exact wellFormed.lt_size_of_mem_reachable isReachable
          have blockPlain : ∀ statement ∈ (Graph.ofStatements code).statements id,
              (final.known statement).HasPlainNames :=
            fun _ isPlaced => hasPlainNames_of_reachable plain (inBlock isPlaced)
          have arrivingPlain := fun level reference isMember =>
            plain reference (occurring_arriving covered.occurring id level reference isMember)
          rw [next_eq_replayBlock ((knows_known final).of_keeps keeps) ran] at runRest
          refine ih
            (popped.replayBlock wellFormed owned blockPlain isReachable inRange arrivingPlain) ?_
            (List.append_subset.2 ⟨areReachable, inBlock⟩) (learns.append learnsBlock) isKnown'
            (covered.replayBlock wellFormed isPending) runRest
          intro other isVisited statement isPlaced
          rcases List.mem_append.1 isVisited with wasVisited | isLast
          · rcases pastKnown other wasVisited statement isPlaced with ⟨found, isKnown⟩
            exact ⟨found, learnsBlock.keeps _ _ isKnown⟩
          · rw [List.mem_singleton.1 isLast] at isPlaced
            exact learnsBlock.exists_known isPlaced

end

section

variable {root : Node} (distinct : root.innerPlaces.Nodup) (clauses : root.HasPlainClauses)
  (isReachable : statement ∈ (Graph.ofStatements root.parts).reachableStatements)

include distinct clauses isReachable

/-- Other statements are not found out about on account of a statement. -/
theorem Consulted.eq_of_mem_reachableStatements {other inner : Node}
    (isReachable' : other ∈ (Graph.ofStatements root.parts).reachableStatements)
    (consulted : Consulted other inner) (sameKey : inner.key = statement.key) :
    other = statement := by
  rcases List.mem_flatMap.1 isReachable with ⟨id, -, isPlaced⟩
  rcases List.mem_flatMap.1 isReachable' with ⟨id', -, isPlaced'⟩
  have beneath := transGen_isPart_of_mem_statements isPlaced'
  have same : inner = statement :=
    Node.eq_of_key_eq_of_beneath distinct (beneath.trans_left consulted.within)
      (transGen_isPart_of_mem_statements isPlaced) sameKey
  subst same
  cases opens : opensNamedScope other with
  | false => exact (consulted.eq_of_noScope opens).symm
  | true =>
      rcases Relation.reflTransGen_iff_eq_or_transGen.1 consulted.within with same | beneath'
      · exact same.symm
      · exact absurd beneath'
          (Graph.not_beneath_of_mem_statements distinct clauses isPlaced beneath opens)

/-- What the analysis of a program knows about a statement in the end, it has found out when it
visited the statement for the first time. -/
theorem exists_firstVisit (arises : start.Arises) {result : AnalysisResult}
    (run : (Analysis.graph (.ofStatements root.parts) .empty).run start = .ok (result, final))
    (plain : ∀ reference, Occurs final.known (.ofStatements root.parts) .empty reference →
      reference.HasPlainName)
    (uncached : ∀ location ∈ root.innerPlaces, start.cache.get? location.key = none)
    (isKnown : final.cached? statement = some found) :
    ∃ running before after,
      FirstVisit root.parts start final statement running before after found := by
  have built : Graph.ofRoot ⟨.module root.parts, root.location⟩ =
      .ok (.ofStatements root.parts) := rfl
  have wellFormed : (Graph.ofStatements root.parts).WellFormed :=
    (Graph.ofRoot_laidOut built).wellFormed
  have owned := (arises.graph built run).sound.ownedAt_known
  rcases List.mem_flatMap.1 isReachable with ⟨id, -, isPlaced⟩
  have unknown : start.cached? statement = none :=
    uncached _ (Node.location_mem_innerPlaces (transGen_isPart_of_mem_statements isPlaced))
  rw [Analysis.graph, ofGraph] at run
  rcases exists_of_run_bind run with ⟨_, _, ⟨⟩, run⟩
  rcases exists_of_run_bind run with ⟨progress, between, iterates, run⟩
  rcases exists_of_run_bind run with ⟨controls, between', found', ⟨⟩⟩
  rcases exists_controlPairs built with ⟨controls', foundControls⟩
  rw [foundControls] at found'
  rcases found' with ⟨⟩
  rcases exists_firstVisit_of_iterate owned plain (traced_start wellFormed) (by simp)
    (List.nil_subset _) (.nil start) unknown (covered_start wellFormed) iterates isKnown with
    ⟨other, isReachable', running, before, after, found', visit, unknown', isKnown'⟩
  rcases (changes_of_run_defUse visit.run).exists_composes isKnown' with
    wasKnown | ⟨inner, _, consulted, sameKey, -⟩
  · cases unknown'.symm.trans wasKnown
  · rcases consulted.eq_of_mem_reachableStatements distinct clauses isReachable isReachable'
      sameKey with rfl
    rw [(keeps_of_run_defUse visit.run).2] at isKnown'
    rcases isKnown' with ⟨⟩
    exact ⟨running, before, after, visit⟩

end

end Analysis

end FlowAnalysis
