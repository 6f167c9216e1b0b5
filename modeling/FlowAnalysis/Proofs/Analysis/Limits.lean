import FlowAnalysis.Proofs.Analysis.Draining
import FlowAnalysis.Proofs.Analysis.FirstVisit

/-!
# Some limit always suffices

An analyzer has a limit on how many blocks an analysis processes. It is never needed: with every
limit that is large enough, each step of an analysis ends in the same way, and the iteration over
the blocks of a graph leaves no block pending.

What statements define and use becomes known on the way, in analyses of their own when they hold
functions or classes. So the iteration is followed in phases: as long as it comes to blocks whose
statements are known, it is a run over what is known, and such a run ends. When it comes to a block
with a statement that is not known yet, fewer statements are unknown behind that block.
-/

namespace FlowAnalysis

/-- The same analyzer with another limit on iterations. -/
def Analyzer.withLimit (analyzer : Analyzer) (limit : Nat) : Analyzer :=
  { analyzer with iterationLimit := limit }

namespace Analysis

/-- With every limit that is large enough a step ends in the same way. -/
def Completes {Result : Type} (step : Analysis Result) : Prop :=
  ∀ analyzer : Analyzer, ∃ enough result, ∃ after : Analyzer, ∀ limit ≥ enough,
    step.run (analyzer.withLimit limit) = .ok (result, after.withLimit limit)

namespace Completes

variable {First Second : Type} {step : Analysis First} {next : First → Analysis Second}

theorem pure (result : First) : Completes (Pure.pure result : Analysis First) :=
  fun analyzer => ⟨0, result, analyzer, fun _ _ => rfl⟩

theorem bind (first : Completes step) (second : ∀ result, Completes (next result)) :
    Completes (step >>= next) := by
  intro analyzer
  rcases first analyzer with ⟨enough, result, between, runs⟩
  rcases second result between with ⟨enough', result', after, runs'⟩
  refine ⟨max enough enough', result', after, fun limit large => ?_⟩
  exact (run_bind (runs limit (by lia))).trans (runs' limit (by lia))

/-- A step may ask what the analyzer is like, as long as the limit does not matter to it. -/
theorem get {next : Analyzer → Analysis Second} (completes : ∀ analyzer, Completes (next analyzer))
    (blind : ∀ (analyzer : Analyzer) limit, next (analyzer.withLimit limit) = next analyzer) :
    Completes (MonadState.get >>= next) := by
  intro analyzer
  rcases completes analyzer analyzer with ⟨enough, result, after, runs⟩
  refine ⟨enough, result, after, fun limit large => (run_bind rfl).trans ?_⟩
  rw [blind]
  exact runs limit large

theorem learn (change : SymbolTable → SymbolTable) : Completes (learn change) :=
  fun analyzer => ⟨0, (), analyzer.withSymbols change, fun _ _ => rfl⟩

theorem learnWhen {condition : Prop} [Decidable condition] (change : SymbolTable → SymbolTable)
    {next : Unit → Analysis Second} (completes : Completes (next ())) :
    Completes (if condition then Analysis.learn change >>= next else next ()) := by
  split
  · exact (learn change).bind fun _ => completes
  · exact completes

end Completes

/-! ### The iteration over a graph -/

/-- With every limit that is large enough an iteration comes to an end by itself, and in the same
way. -/
def Drains (graph : Graph) (analyzer : Analyzer) (progress : Progress) : Prop :=
  ∃ enough last, ∃ after : Analyzer, last.pending = [] ∧ ∀ steps ≥ enough, ∀ limit ≥ enough,
    (iterate defUse graph steps progress).run (analyzer.withLimit limit) =
      .ok (last, after.withLimit limit)

/-- The keys of the reachable statements that an analyzer does not know. -/
def unknownKeys (graph : Graph) (analyzer : Analyzer) : Finset String :=
  (graph.reachableStatements.map Node.key).toFinset.filter fun key =>
    (analyzer.cache.get? key).isNone

variable {graph : Graph} {analyzer between after : Analyzer} {id : BlockId}
  {pending : List BlockId} {progress next : Progress} {statement : Node} {root : Node}

/-- What becomes known is unknown no longer, and nothing becomes unknown. -/
theorem card_unknownKeys_lt {found : DefUse} (keeps : analyzer.Keeps after)
    (isReachable : statement ∈ graph.reachableStatements)
    (unknown : analyzer.cached? statement = none) (isKnown : after.cached? statement = some found) :
    (unknownKeys graph after).card < (unknownKeys graph analyzer).card := by
  apply Finset.card_lt_card
  refine Finset.ssubset_iff_subset_ne.2 ⟨fun key isUnknown => ?_, fun same => ?_⟩
  · rcases Finset.mem_filter.1 isUnknown with ⟨isKey, isNone⟩
    refine Finset.mem_filter.2 ⟨isKey, ?_⟩
    cases known : analyzer.cache.get? key with
    | none => rfl
    | some found' =>
        rw [keeps key found' known] at isNone
        cases isNone
  · have isUnknown : statement.key ∈ unknownKeys graph analyzer := by
      refine Finset.mem_filter.2 ⟨List.mem_toFinset.2 (List.mem_map_of_mem isReachable), ?_⟩
      exact Option.isNone_iff_eq_none.2 unknown
    rw [← same] at isUnknown
    have isNone := Option.isNone_iff_eq_none.1 (Finset.mem_filter.1 isUnknown).2
    cases isKnown.symm.trans isNone

theorem completes_runStatements {transfer : Transfer} {statements : List Node}
    (completes : ∀ statement ∈ statements, ∀ running, Completes (transfer statement running))
    (running : DefUse) (progress : Progress) :
    Completes (runStatements transfer statements running progress) := by
  induction statements generalizing running progress with
  | nil => exact .pure _
  | cons first rest ih =>
      rcases List.forall_mem_cons.1 completes with ⟨firstCompletes, restCompletes⟩
      exact (firstCompletes running.defs).bind fun _ => ih restCompletes _ _

theorem completes_processBlock {transfer : Transfer}
    (completes : ∀ statement ∈ graph.statements id, ∀ running,
      Completes (transfer statement running))
    (progress : Progress) : Completes (processBlock transfer graph id progress) :=
  (completes_runStatements completes _ progress).bind fun _ => .pure _

/-- Where all statements are known, running them changes nothing about the analyzer. -/
theorem run_runStatements_of_known {statements : List Node}
    (known : ∀ statement ∈ statements, ∃ found, analyzer.cached? statement = some found)
    (running : DefUse) (progress : Progress) :
    (runStatements defUse statements running progress).run analyzer =
      .ok ((stateAfter analyzer.known running statements,
        recordAll analyzer.known statements running progress), analyzer) := by
  induction statements generalizing running progress with
  | nil => rfl
  | cons first rest ih =>
      rcases List.forall_mem_cons.1 known with ⟨⟨found, firstKnown⟩, restKnown⟩
      refine (run_bind (run_defUse_of_known firstKnown)).trans ?_
      rw [← Analyzer.known_eq firstKnown]
      exact ih restKnown _ _

theorem run_processBlock_of_known
    (known : ∀ statement ∈ graph.statements id, ∃ found, analyzer.cached? statement = some found)
    (progress : Progress) : (processBlock defUse graph id progress).run analyzer =
      .ok (replayBlock analyzer.known graph id progress, analyzer) :=
  (run_bind (run_runStatements_of_known known _ progress)).trans rfl

namespace Drains

theorem done (nonePending : progress.pending = []) : Drains graph analyzer progress := by
  refine ⟨0, progress, analyzer, nonePending, fun steps _ limit _ => ?_⟩
  rcases progress with ⟨_, states, dataflows, defined, undefinedRefs, iterations⟩
  rcases (nonePending : _ = [])
  cases steps <;> rfl

/-- An iteration drains if it does so behind the next block. -/
theorem step {enough : Nat} (isPending : progress.pending = id :: pending)
    (processes : ∀ limit ≥ enough, (processBlock defUse graph id
      { progress with pending, iterations := progress.iterations + 1 }).run
        (analyzer.withLimit limit) = .ok (next, between.withLimit limit))
    (drains : Drains graph between next) : Drains graph analyzer progress := by
  rcases drains with ⟨enough', last, after, nonePending, runs⟩
  refine ⟨max enough enough' + 1, last, after, nonePending, fun steps large limit large' => ?_⟩
  cases steps with
  | zero => lia
  | succ steps =>
      rw [iterate, isPending]
      exact (run_bind (processes limit (by lia))).trans (runs steps (by lia) limit (by lia))

end Drains

/-- If statements do so, the iteration over the graph of a program drains, wherever it has come to
and whatever the analyzer knows. -/
theorem drains_of_completes (built : Graph.ofRoot root = .ok graph)
    (completes : ∀ id, ∀ statement ∈ graph.statements id, ∀ running,
      Completes (defUse statement running))
    (analyzer : Analyzer) (fits : Fits graph progress) : Drains graph analyzer progress := by
  have wellFormed := (Graph.ofRoot_laidOut built).wellFormed
  rcases Graph.exists_cutset built with ⟨heads, cutset⟩
  -- The outer induction is on the number of unknown statements, the inner one follows the run that
  -- there would be if what is known did not change.
  generalize unknownEq : (unknownKeys graph analyzer).card = unknown
  induction unknown using Nat.strongRecOn generalizing analyzer progress with
  | ind unknown behindUnknown =>
  subst unknownEq
  rcases exists_run cutset wellFormed analyzer.known fits with ⟨visits, last, run⟩
  induction run with
  | done nonePending => exact .done nonePending
  | @step progress last id pending visits isPending _ behindKnown =>
      have fits' : ∀ known, Fits graph (replayBlock known graph id
          { progress with pending, iterations := progress.iterations + 1 }) :=
        fun known => visit_eq isPending ▸ fits.visit wellFormed isPending
      by_cases known : ∀ statement ∈ graph.statements id,
          ∃ found, analyzer.cached? statement = some found
      · have processes : ∀ limit ≥ 0, (processBlock defUse graph id
            { progress with pending, iterations := progress.iterations + 1 }).run
              (analyzer.withLimit limit) = .ok (replayBlock analyzer.known graph id
                { progress with pending, iterations := progress.iterations + 1 },
              analyzer.withLimit limit) :=
          fun _ _ => run_processBlock_of_known (by exact known) _
        exact .step isPending processes (behindKnown (fits' _))
      · -- The block makes something known, so what follows it is another run.
        push Not at known
        rcases known with ⟨statement, isPlaced, unknown⟩
        have isReachable := statements_subset_reachableStatements (fits.isReachable isPending)
          isPlaced
        rcases completes_processBlock (completes id)
          { progress with pending, iterations := progress.iterations + 1 } analyzer with
          ⟨enough, next, between, processes⟩
        have learns := (learns_of_processBlock (processes enough (Nat.le_refl _))).1
        have nextEq := next_eq_replayBlock (knows_known _) (processes enough (Nat.le_refl _))
        subst nextEq
        rcases learns.exists_known isPlaced with ⟨found, isKnown⟩
        have fewer : (unknownKeys graph between).card < (unknownKeys graph analyzer).card :=
          card_unknownKeys_lt learns.keeps isReachable (Option.eq_none_iff_forall_ne_some.2 unknown)
            isKnown
        exact .step isPending processes (behindUnknown _ fewer between (fits' _) rfl)

theorem completes_ofGraph (built : Graph.ofRoot root = .ok graph)
    (completes : ∀ id, ∀ statement ∈ graph.statements id, ∀ running,
      Completes (defUse statement running))
    (initial : RefSet) : Completes (ofGraph defUse graph initial) := by
  intro analyzer
  rcases exists_controlPairs built with ⟨controls, found⟩
  rcases drains_of_completes built completes analyzer (fits_start graph initial) with
    ⟨enough, last, after, -, runs⟩
  exact ⟨enough, last.result controls, after, fun limit large =>
    run_ofGraph found (runs limit large limit large)⟩

/-! ### Definitions and uses of statements -/

theorem completes_functionWith {function : Node} {name : String}
    {params body decorators : List Node}
    (isDefinition : function.shape = .definition name params body decorators)
    (completes : ∀ inner, LooksInto function inner → ∀ running, Completes (defUse inner running))
    (isMethod : Bool) : Completes (functionWith defUse function isMethod) := by
  have built : Graph.ofRoot function = .ok (Graph.ofStatements body) := by
    rw [Graph.ofRoot, isDefinition]
  have lifted : (liftM (Graph.ofRoot function) : Analysis Graph) =
      pure (Graph.ofStatements body) := by
    rw [built]
    rfl
  have analyzed : ∀ initial, Completes (ofGraph defUse (Graph.ofStatements body) initial) :=
    completes_ofGraph built fun id statement isPlaced =>
      completes statement (.body isDefinition isPlaced)
  rw [functionWith, isDefinition]
  refine .get (fun _ => .learnWhen _ ?_) fun _ _ => rfl
  rw [lifted, pure_bind]
  exact (analyzed _).bind fun _ => .pure _

theorem completes_memberReferences (statement : Node) {members : List Node}
    (completes : ∀ member ∈ members, (∀ running, Completes (defUse member running)) ∧
      ∀ inner, LooksInto member inner → ∀ running, Completes (defUse inner running)) :
    Completes (memberReferences defUse statement members) := by
  induction members with
  | nil => exact .pure _
  | cons member rest ih =>
      rcases List.forall_mem_cons.1 completes with ⟨⟨itself, inside⟩, restCompletes⟩
      rw [memberReferences]
      split
      · next isDefinition =>
          refine (completes_functionWith isDefinition inside true).bind fun analysis => ?_
          exact (Completes.pure _).bind fun _ => (ih restCompletes).bind fun _ => .pure _
      · refine (itself .empty).bind fun defUse => ?_
        exact (Completes.pure _).bind fun _ => (ih restCompletes).bind fun _ => .pure _

section

variable (completes : ∀ inner, Scope statement inner → ∀ running, Completes (defUse inner running))

include completes

theorem completes_ownReferences : Completes (ownReferences defUse statement) := by
  rw [ownReferences]
  split
  · exact (Completes.learn _).bind fun _ => .pure _
  · exact (Completes.learn _).bind fun _ => .pure _
  · next isDefinition =>
      have inside := fun inner looksInto => completes inner (.single looksInto)
      refine (completes_functionWith isDefinition inside false).bind fun analysis => ?_
      exact .get (fun _ => .learnWhen _ (.pure _)) fun _ _ => rfl
  · next isClass =>
      refine (completes_memberReferences statement fun member isMember => ?_).bind fun _ =>
        .get (fun _ => .learnWhen _ (.pure _)) fun _ _ => rfl
      have looksInto : LooksInto statement member := .member isClass isMember
      exact ⟨completes member (.single looksInto),
        fun inner looksInto' => completes inner (.tail (.single looksInto) looksInto')⟩
  · exact .get (fun _ => .pure _) fun _ _ => rfl
  all_goals exact .pure _

theorem completes_defUseWith (running : RefSet) : Completes (defUseWith defUse statement running) :=
  (completes_ownReferences completes).bind fun _ => .get (fun _ => .pure _) fun _ _ => rfl

end

theorem completes_remembered {transfer : Transfer} {running : RefSet}
    (completes : Completes (transfer statement running)) :
    Completes (remembered transfer statement running) := by
  intro analyzer
  rw [remembered]
  cases known : analyzer.cached? statement with
  | some found =>
      refine ⟨0, found, analyzer, fun limit _ => (run_bind rfl).trans ?_⟩
      have known' : (analyzer.withLimit limit).cached? statement = some found := known
      rw [known']
      rfl
  | none =>
      rcases completes analyzer with ⟨enough, found, between, runs⟩
      refine ⟨enough, found, { between with cache := between.cache.insert statement.key found },
        fun limit large => (run_bind rfl).trans ?_⟩
      have unknown : (analyzer.withLimit limit).cached? statement = none := known
      rw [unknown]
      exact (run_bind (runs limit large)).trans rfl

/-- What the definitions and uses of a statement are found to be does not depend on the limit, if it
is large enough. -/
theorem completes_defUse (statement : Node) (running : RefSet) :
    Completes (defUse statement running) := by
  rw [defUse_eq]
  exact completes_remembered (completes_defUseWith
    (fun inner inScope reaching => completes_defUse inner reaching) running)
termination_by statement.scopeDepth
decreasing_by exact inScope.scopeDepth_lt

/-! ### Whole analyses -/

/-- The analysis of a program visits blocks until none is pending or its limit is reached, and
reports what has been found then. With every limit that is large enough, no block is pending in the
end, and the outcome is the same. At any limit the entry is visited once; and where keys tell the
names, no state but that of the entry loses a key from one time to a later one. -/
theorem graph_drains (built : Graph.ofRoot root = .ok graph) (analyzer : Analyzer)
    (initial : RefSet) : ∃ enough outcome, ∃ final : Analyzer, ∀ limit,
      ∃ result after visits last controls,
        (Analysis.graph graph initial).run (analyzer.withLimit limit) = .ok (result, after) ∧
        graph.controlPairs = .ok controls ∧
        Visits after.known graph (.start graph initial) visits last ∧
        (visits.length = limit ∨ last.pending = []) ∧
        result = Progress.result { last with
          iterations := visits.length + if last.pending.isEmpty then 0 else 1 } controls ∧
        (enough ≤ limit →
          last.pending = [] ∧ result = outcome ∧ after = final.withLimit limit) ∧
        (0 < limit → visits.count graph.entry = 1) ∧
        (KeysTellNames after.known graph initial →
          ∀ {first second rest}, visits = first ++ (second ++ rest) → ∃ earlier later,
            Visits after.known graph (.start graph initial) first earlier ∧
            Visits after.known graph earlier second later ∧
            Visits after.known graph later rest last ∧
            ∀ id ≠ graph.entry, KeysIn (earlier.state id) (later.state id)) := by
  have wellFormed := (Graph.ofRoot_laidOut built).wellFormed
  rcases transfers_defUse.ofGraph built (fun _ _ _ => trivial) initial with
    ⟨controls, found, succeeds⟩
  rcases drains_of_completes built (fun _ statement _ => completes_defUse statement) analyzer
    (fits_start graph initial) with ⟨enough, drained, final, nonePending, runs⟩
  refine ⟨enough, drained.result controls, final, fun limit => ?_⟩
  rcases succeeds (analyzer.withLimit limit) fun _ _ _ => trivial with
    ⟨result, after, run, -, -, replays, -⟩
  rcases exists_visits_replay after.known graph limit (.start graph initial) with
    ⟨visits, last, path, ends, replayed⟩
  have counted : last.iterations = visits.length := path.iterations_eq.trans (Nat.zero_add _)
  have resultEq := replays after.known (knows_known after)
  have limitEq : (analyzer.withLimit limit).iterationLimit = limit := rfl
  rw [limitEq, replayed, counted] at resultEq
  refine ⟨result, after, visits, last, controls, run, found, path, ends, resultEq, ?complete, ?once,
    ?grows⟩
  case complete =>
    intro large
    have run' : (ofGraph defUse graph initial).run (analyzer.withLimit limit) =
        .ok (drained.result controls, final.withLimit limit) :=
      run_ofGraph found (runs limit large limit large)
    rw [run] at run'
    rcases run' with ⟨⟩
    have sameEnd := congrArg AnalysisResult.converged resultEq
    refine ⟨?_, rfl, rfl⟩
    simpa [Progress.result, nonePending] using sameEnd
  case once =>
    intro positive
    refine path.count_entry_visits wellFormed (ends.imp_left ?_)
    rintro atLimit rfl
    exact absurd atLimit (Nat.ne_of_lt positive)
  case grows =>
    rintro tells first second rest rfl
    rcases path.exists_of_append with ⟨earlier, past, path'⟩
    rcases path'.exists_of_append with ⟨later, between, path''⟩
    exact ⟨earlier, later, past, between, path'',
      fun id notEntry => past.keysIn tells wellFormed notEntry between⟩

/-- Two loops, one in the body of the other, both of which pass a binding round. -/
def nestedLoops : Node :=
  onLine 1 0 30 (.module [onLine 1 0 30 (.whileLoop (onLine 1 6 7 (.name "c"))
    [onLine 2 2 9 (.assign none [onLine 2 2 3 (.name "x")] [onLine 2 6 7 (.name "y")]),
      onLine 3 2 20 (.whileLoop (onLine 3 8 9 (.name "d"))
        [onLine 4 4 9 (.assign none [onLine 4 4 5 (.name "y")] [onLine 4 8 9 (.name "x")])] [])]
    [])])

/-- The loops are visited again until what is bound in one of them has been passed round the other;
the limit of a new analyzer is large enough for that. -/
theorem graph_drains_nestedLoops : ∃ graph, Graph.ofRoot nestedLoops = .ok graph ∧
    ∃ result after visits last,
      (Analysis.graph graph .empty).run ((Analyzer.ofSpecs []).withLimit 10000) =
        .ok (result, after) ∧
      Visits after.known graph (.start graph .empty) visits last ∧
      last.pending = [] ∧ visits.length = 13 ∧ visits.count graph.entry = 1 ∧
      ∀ {first second rest}, visits = first ++ (second ++ rest) → ∃ earlier later,
        Visits after.known graph (.start graph .empty) first earlier ∧
        Visits after.known graph earlier second later ∧
        KeysIn (earlier.state 2) (later.state 2) := by
  have built : Graph.ofRoot nestedLoops = .ok _ := rfl
  refine ⟨_, built, ?_⟩
  rcases graph_drains built (.ofSpecs []) .empty with ⟨enough, outcome, final, limits⟩
  rcases limits 10000 with
    ⟨result, after, visits, last, controls, run, -, path, -, resultEq, -, once, grows⟩
  have facts := holds_of_run
    (fun outcome : AnalysisResult × Analyzer => outcome.1.converged = true ∧
      outcome.1.iterations = 13 ∧
      ∀ statement ∈ (Graph.ofStatements nestedLoops.body).reachableStatements,
        ∀ level ∈ Level.all, ∀ reference ∈ ((outcome.2.known statement).level level).toList,
          ':' ∉ reference.name.toList) (by decide +kernel) run
  rcases facts with ⟨converged, counted, plain⟩
  rw [resultEq] at converged counted
  have nonePending : last.pending = [] := List.isEmpty_iff.1 converged
  have tells : KeysTellNames after.known (.ofStatements nestedLoops.body) .empty := by
    refine keysTellNames_of_plain ?_
    rintro reference (absent | ⟨statement, isReachable, level, isMember⟩)
    · exact absurd absent List.not_mem_nil
    · exact plain statement isReachable level level.mem_all reference isMember
  refine ⟨result, after, visits, last, run, path, nonePending, ?_, once (by decide), ?_⟩
  · simpa [Progress.result, nonePending] using counted
  · intro first second rest visitsEq
    rcases grows tells visitsEq with ⟨earlier, later, past, between, -, grown⟩
    exact ⟨earlier, later, past, between, grown 2 (by decide)⟩

/-- A statement that binds a name without reading any. -/
def binder (line : Nat) (name : String) (location : Location) : Node :=
  onLine line 0 9 (.assign none [⟨.name name, location⟩] [])

/-- A loop with five bindings in its body. Two of them and the one before the loop have the same key
under different names, since names and paths hold what sets the parts of a key apart. -/
def entangledLoop : Node :=
  let place := fun path => (⟨9, 0, 9, 1, some path⟩ : Location)
  onLine 1 0 30 (.module [binder 1 "a:DEFINITION@q" (place "q:DEFINITION@p"),
    onLine 2 0 30 (.whileLoop (onLine 2 6 7 (.name "c"))
      [binder 3 "a" ⟨3, 0, 3, 1, none⟩,
        binder 4 "a:DEFINITION@q:DEFINITION@q" (place "p"),
        binder 5 "a:DEFINITION@q" ⟨5, 0, 5, 1, none⟩,
        binder 6 "a" (place "q:DEFINITION@q:DEFINITION@p"),
        binder 7 "a:DEFINITION@q:DEFINITION@q" ⟨7, 0, 7, 1, none⟩] [])])

/-- What is stored for the body of the loop when it is visited for the first time has a key that it
has lost when the body is visited again. -/
theorem not_keysIn_entangledLoop : ∃ graph, Graph.ofRoot entangledLoop = .ok graph ∧
    ∃ result after earlier later,
      (Analysis.graph graph .empty).run (.ofSpecs []) = .ok (result, after) ∧
      Visits after.known graph (.start graph .empty) [1, 2, 4] earlier ∧
      Visits after.known graph earlier [2, 4] later ∧ 4 ≠ graph.entry ∧
      ¬KeysIn (earlier.state 4) (later.state 4) := by
  have built : Graph.ofRoot entangledLoop = .ok _ := rfl
  refine ⟨_, built, ?_⟩
  rcases (Analyzer.Arises.new (.ofSpecs []) true 10000).exists_run built .empty with
    ⟨result, after, run, -⟩
  have facts := holds_of_run
    (fun outcome : AnalysisResult × Analyzer =>
      let graph := Graph.ofStatements entangledLoop.body
      ∃ earlier ∈ visitAll? outcome.2.known graph [1, 2, 4] (.start graph .empty),
        ∃ later ∈ visitAll? outcome.2.known graph [2, 4] earlier,
          ∃ key ∈ ((earlier.state 4).level .use).keys, key ∉ ((later.state 4).level .use).keys)
    (by decide +kernel) run
  rcases facts with ⟨earlier, past, later, between, key, isKey, lost⟩
  exact ⟨result, after, earlier, later, run, visits_of_visitAll? past,
    visits_of_visitAll? between, by decide, fun keysIn => lost (keysIn .use isKey)⟩

end Analysis

end FlowAnalysis
