import FlowAnalysis.Proofs.Analysis.Changes

/-!
# The order in which statements are found out about

An analysis goes through the blocks of a graph again and again, but what it finds out about a
statement it finds out when it comes to the statement for the first time. So it leaves the analyzer
as if it had found out about the reachable statements once, one after the other in the order in
which the graph lists them, as far as it came: to the end, if it converges.
-/

namespace FlowAnalysis

namespace Analysis

/-- An analyzer finds out about statements one after the other, unless it knows them already. -/
inductive Learns : Analyzer → List Node → Analyzer → Prop where
  | nil (analyzer : Analyzer) : Learns analyzer [] analyzer
  | skip {analyzer after : Analyzer} {statement : Node} {rest : List Node} {found : DefUse}
      (known : analyzer.cached? statement = some found) (learns : Learns analyzer rest after) :
      Learns analyzer (statement :: rest) after
  | find {analyzer between after : Analyzer} {statement : Node} {rest : List Node}
      {running : RefSet} {found : DefUse} (unknown : analyzer.cached? statement = none)
      (run : (defUse statement running).run analyzer = .ok (found, between))
      (learns : Learns between rest after) : Learns analyzer (statement :: rest) after

/-- Learning about statements, an analyzer explores those that it does not know, and the statements
that it has to find out about on their account. -/
def Explores (analyzer : Analyzer) (statements : List Node) (inner : Node) : Prop :=
  ∃ statement ∈ statements, analyzer.cached? statement = none ∧ Consulted statement inner

theorem run_defUse_of_known {statement : Node} {running : RefSet} {analyzer : Analyzer}
    {found : DefUse} (known : analyzer.cached? statement = some found) :
    (defUse statement running).run analyzer = .ok (found, analyzer) := by
  rw [defUse_eq, remembered]
  refine (run_bind rfl).trans ?_
  rw [known]
  rfl

/-- What a step is sure to end with it does end with. -/
theorem keeps_of_yields {Result : Type} {step : Analysis Result} {post : Result → Analyzer → Prop}
    {result : Result} {analyzer after : Analyzer} (yields : Yields Anything step post)
    (run : step.run analyzer = .ok (result, after)) : analyzer.Keeps after ∧ post result after := by
  rcases yields analyzer fun _ _ _ => trivial with ⟨_, _, run', keeps, -, ends⟩
  rw [run] at run'
  rcases run' with ⟨⟩
  exact ⟨keeps, ends⟩

theorem keeps_of_run_defUse {statement : Node} {running : RefSet} {analyzer after : Analyzer}
    {found : DefUse} (run : (defUse statement running).run analyzer = .ok (found, after)) :
    analyzer.Keeps after ∧ after.cached? statement = some found := by
  have closed : ∀ {outer inner : Node}, Relation.ReflTransGen LooksInto statement outer →
      LooksInto outer inner → Relation.ReflTransGen LooksInto statement inner :=
    fun inScope looksInto => inScope.tail looksInto
  have yields : Yields Anything (defUse statement running) fun found after =>
      after.cached? statement = some found :=
    defUse_yields closed (fun _ _ => trivial) statement .refl running
  exact keeps_of_yields yields run

namespace Learns

variable {analyzer between after : Analyzer} {statements statements' : List Node}

theorem cons {statement : Node} {running : RefSet} {found : DefUse}
    (run : (defUse statement running).run analyzer = .ok (found, between))
    (learns : Learns between statements after) : Learns analyzer (statement :: statements) after := by
  cases known : analyzer.cached? statement with
  | none => exact .find known run learns
  | some found' =>
      rw [run_defUse_of_known known] at run
      rcases run with ⟨⟩
      exact .skip known learns

theorem keeps (learns : Learns analyzer statements after) : analyzer.Keeps after := by
  induction learns with
  | nil analyzer => exact .refl analyzer
  | skip _ _ ih => exact ih
  | find _ run _ ih => exact (keeps_of_run_defUse run).1.trans ih

/-- What has been found out about is known. -/
theorem exists_known (learns : Learns analyzer statements after) {statement : Node}
    (isMember : statement ∈ statements) : ∃ found, after.cached? statement = some found := by
  induction learns with
  | nil => exact absurd isMember List.not_mem_nil
  | skip known learns ih =>
      rcases List.mem_cons.1 isMember with rfl | isMember
      · exact ⟨_, learns.keeps _ _ known⟩
      · exact ih isMember
  | find _ run learns ih =>
      rcases List.mem_cons.1 isMember with rfl | isMember
      · exact ⟨_, learns.keeps _ _ (keeps_of_run_defUse run).2⟩
      · exact ih isMember

theorem append (learns : Learns analyzer statements between)
    (learns' : Learns between statements' after) :
    Learns analyzer (statements ++ statements') after := by
  induction learns with
  | nil => exact learns'
  | skip known _ ih => exact .skip known (ih learns')
  | find unknown run _ ih => exact .find unknown run (ih learns')

theorem exists_of_append (learns : Learns analyzer (statements ++ statements') after) :
    ∃ between, Learns analyzer statements between ∧ Learns between statements' after := by
  induction statements generalizing analyzer with
  | nil => exact ⟨analyzer, .nil analyzer, learns⟩
  | cons first rest ih =>
      rcases learns with _ | ⟨known, learns⟩ | ⟨unknown, run, learns⟩
      · rcases ih learns with ⟨between, learns, learns'⟩
        exact ⟨between, .skip known learns, learns'⟩
      · rcases ih learns with ⟨between, learns, learns'⟩
        exact ⟨between, .find unknown run learns, learns'⟩

/-- Nothing is found out where everything is known. -/
theorem eq_of_known (learns : Learns analyzer statements after)
    (known : ∀ statement ∈ statements, ∃ found, analyzer.cached? statement = some found) :
    after = analyzer := by
  induction learns with
  | nil => rfl
  | skip _ _ ih =>
      exact ih (List.forall_mem_cons.1 known).2
  | find unknown =>
      rcases (List.forall_mem_cons.1 known).1 with ⟨found, isKnown⟩
      rw [unknown] at isKnown
      cases isKnown

theorem changes (learns : Learns analyzer statements after) :
    Changes (Explores analyzer statements) analyzer after := by
  induction learns with
  | nil => exact .refl
  | skip _ _ ih =>
      apply ih.mono
      rintro inner ⟨statement, isMember, unknown, consulted⟩
      exact ⟨statement, List.mem_cons_of_mem _ isMember, unknown, consulted⟩
  | @find analyzer between after first rest running found unknown run _ ih =>
      apply Relation.ReflTransGen.trans
      · apply (changes_of_run_defUse run).mono
        exact fun inner consulted => ⟨first, by simp, unknown, consulted⟩
      · apply ih.mono
        rintro inner ⟨statement, isMember, unknown', consulted⟩
        refine ⟨statement, List.mem_cons_of_mem _ isMember, ?_, consulted⟩
        cases known : analyzer.cached? statement with
        | none => rfl
        | some found =>
            have isKnown := (keeps_of_run_defUse run).1 _ _ known
            cases unknown'.symm.trans isKnown

end Learns

/-! ### The order of an iteration -/

theorem Progress.exists_schedule_eq (pending ids : List BlockId) :
    ∃ extra, schedule pending ids = extra ++ pending ∧ ∀ id ∈ extra, id ∈ ids ∧ id ∉ pending := by
  induction ids generalizing pending with
  | nil => exact ⟨[], rfl, by simp⟩
  | cons first rest ih =>
      have step : schedule pending (first :: rest) =
        schedule (if first ∈ pending then pending else first :: pending) rest := rfl
      rw [step]
      split
      · rcases ih pending with ⟨extra, scheduled, areNew⟩
        exact ⟨extra, scheduled, fun id isExtra => ⟨List.mem_cons_of_mem _ (areNew id isExtra).1,
          (areNew id isExtra).2⟩⟩
      · next absent =>
          rcases ih (first :: pending) with ⟨extra, scheduled, areNew⟩
          refine ⟨extra ++ [first], by simp [scheduled], fun id isExtra => ?_⟩
          rcases List.mem_append.1 isExtra with isExtra | isFirst
          · exact ⟨List.mem_cons_of_mem _ (areNew id isExtra).1,
              fun isPending => (areNew id isExtra).2 (List.mem_cons_of_mem _ isPending)⟩
          · rw [List.mem_singleton.1 isFirst]
            exact ⟨List.mem_cons_self, absent⟩

section

variable {graph : Graph} {analyzer after : Analyzer}

theorem learns_of_runStatements {statements : List Node} {running : DefUse} {progress : Progress}
    {result : DefUse × Progress}
    (run : (runStatements defUse statements running progress).run analyzer = .ok (result, after)) :
    Learns analyzer statements after ∧ result.2.pending = progress.pending := by
  induction statements generalizing analyzer running progress with
  | nil =>
      cases run
      exact ⟨.nil _, rfl⟩
  | cons first rest ih =>
      rcases exists_of_run_bind run with ⟨found, between, ran, run⟩
      rcases ih run with ⟨learns, pendingEq⟩
      exact ⟨.cons ran learns, pendingEq⟩

theorem learns_of_processBlock {id : BlockId} {progress next : Progress}
    (run : (processBlock defUse graph id progress).run analyzer = .ok (next, after)) :
    Learns analyzer (graph.statements id) after ∧ ∃ extra,
      next.pending = extra ++ progress.pending ∧
        ∀ other ∈ extra, other ∈ graph.successors id ∧ other ∉ progress.pending := by
  rcases exists_of_run_bind run with ⟨⟨running, recorded⟩, between, ran, ⟨⟩⟩
  rcases learns_of_runStatements ran with ⟨learns, pendingEq⟩
  refine ⟨learns, ?_⟩
  rw [Progress.store, ← pendingEq]
  split
  · exact ⟨[], rfl, by simp⟩
  · exact Progress.exists_schedule_eq _ _

/-- Once the statements of some blocks are known, an iteration finds out about those of the others
in the order in which these are pending, and about all of them if none is pending at its end. Blocks
that are pending again do not matter. -/
theorem learns_of_iterate (closed : ∀ id ∈ graph.reachable, graph.successors id ⊆ graph.reachable)
    {limit : Nat} {progress last : Progress} {extra done rest : List BlockId}
    (reachableEq : graph.reachable = done ++ rest) (pendingEq : progress.pending = extra ++ rest)
    (again : extra ⊆ done)
    (known : ∀ id ∈ done, ∀ statement ∈ graph.statements id,
      ∃ found, analyzer.cached? statement = some found)
    (run : (iterate defUse graph limit progress).run analyzer = .ok (last, after)) :
    ∃ front back, rest = front ++ back ∧ Learns analyzer (front.flatMap graph.statements) after ∧
      (last.pending = [] → back = []) := by
  have stops : progress.pending = [] → rest = [] := by
    rw [pendingEq, List.append_eq_nil_iff]
    exact And.right
  induction limit generalizing progress extra done rest analyzer with
  | zero =>
      cases run
      exact ⟨[], rest, rfl, .nil _, stops⟩
  | succ limit ih =>
      rw [iterate] at run
      split at run
      · cases run
        exact ⟨[], rest, rfl, .nil _, stops⟩
      · next id pending isPending =>
          rcases exists_of_run_bind run with ⟨next, between, ran, runRest⟩
          rcases learns_of_processBlock ran with ⟨learns, more, nextEq, areNew⟩
          rw [pendingEq] at isPending
          cases extra with
          | cons head extra =>
              rw [List.cons_append] at isPending
              rcases isPending with ⟨⟩
              rcases List.cons_subset.1 again with ⟨isDone, again⟩
              rcases learns.eq_of_known (known id isDone) with rfl
              have pendingEq' : next.pending = (more ++ extra) ++ rest := by
                simp [nextEq]
              refine ih reachableEq pendingEq' ?_ known runRest (by simp [nextEq])
              intro other isExtra
              rcases List.mem_append.1 isExtra with isMore | isExtra
              · rcases areNew other isMore with ⟨edge, notPending⟩
                have isReachable := closed id (by simp [reachableEq, isDone]) edge
                rw [reachableEq] at isReachable
                refine (List.mem_append.1 isReachable).resolve_right fun isRest => ?_
                exact notPending (List.mem_append_right _ isRest)
              · exact again isExtra
          | nil =>
              rw [List.nil_append] at isPending
              subst isPending
              have reachableEq' : graph.reachable = (done ++ [id]) ++ pending := by
                simp [reachableEq]
              have runsOn := ih reachableEq' nextEq ?_ ?_ runRest (by simp [nextEq])
              · rcases runsOn with ⟨front, back, rfl, learnsRest, ends⟩
                exact ⟨id :: front, back, rfl, learns.append learnsRest, ends⟩
              · intro other isMore
                rcases areNew other isMore with ⟨edge, notPending⟩
                have isReachable := closed id (by simp [reachableEq]) edge
                rw [reachableEq] at isReachable
                have := List.mem_append.1 isReachable
                simp_all
              · intro other isDone statement isPlaced
                rcases List.mem_append.1 isDone with isDone | isLast
                · rcases known other isDone statement isPlaced with ⟨found, isKnown⟩
                  exact ⟨found, learns.keeps _ _ isKnown⟩
                · rw [List.mem_singleton.1 isLast] at isPlaced
                  exact learns.exists_known isPlaced

/-- An analysis of a graph finds out about its reachable statements in order, and about all of them
if it converges. -/
theorem learns_of_graph {root : Node} (built : Graph.ofRoot root = .ok graph) {initial : RefSet}
    {result : AnalysisResult}
    (run : (Analysis.graph graph initial).run analyzer = .ok (result, after)) :
    ∃ front back, graph.reachableStatements = front ++ back ∧ Learns analyzer front after ∧
      (result.converged = true → back = []) := by
  have wellFormed := (Graph.ofRoot_laidOut built).wellFormed
  rw [Analysis.graph, ofGraph] at run
  rcases exists_of_run_bind run with ⟨_, _, ⟨⟩, run⟩
  rcases exists_of_run_bind run with ⟨progress, between, ran, run⟩
  rcases exists_of_run_bind run with ⟨controls, between', found, ⟨⟩⟩
  rcases exists_controlPairs built with ⟨controls', found'⟩
  rw [found'] at found
  rcases found with ⟨⟩
  have reachableEq : graph.reachable = [] ++ graph.reachable := rfl
  have pendingEq : (Progress.start graph initial).pending = [] ++ graph.reachable := rfl
  have runsOn := learns_of_iterate ?_ reachableEq pendingEq (by simp) (by simp) ran
  · rcases runsOn with ⟨front, back, reachableEq, learns, ends⟩
    refine ⟨front.flatMap graph.statements, back.flatMap graph.statements, ?_, learns, ?_⟩
    · rw [← List.flatMap_append, ← reachableEq]
      rfl
    · intro converged
      rw [ends (List.isEmpty_iff.1 converged)]
      rfl
  · exact fun id isReachable other edge => wellFormed.mem_reachable_of_successor isReachable edge

end

end Analysis

end FlowAnalysis
