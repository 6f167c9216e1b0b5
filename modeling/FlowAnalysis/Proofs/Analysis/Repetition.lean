import FlowAnalysis.Proofs.Analysis.Learning

/-!
# Analyses that are repeated

An analysis of a graph makes names stand for other things and keeps what it finds out, so a second
analysis of the graph starts from another analyzer. It finds the same nevertheless: everything that
it asks for is known by then, and what is known is never changed from outside. A step settles what
it asks for if it ends in the same way whenever it is taken again, and the analysis of a graph is
composed of such steps.
-/

namespace FlowAnalysis

namespace Analyzer

/-- Nothing known has changed, and analyses are cut short where they were. -/
structure Extends (after before : Analyzer) : Prop where
  keeps : before.Keeps after
  sameLimit : after.iterationLimit = before.iterationLimit

/-- What is done with an analyzer from outside: names are given other meanings, or a graph, a
function or a statement is analyzed. -/
inductive Step : Analyzer → Analyzer → Prop where
  | withSymbols (analyzer : Analyzer) (change : SymbolTable → SymbolTable) :
      Step analyzer (analyzer.withSymbols change)
  | graph {analyzer after : Analyzer} {graph : Graph} {initial : RefSet} {result : AnalysisResult}
      (run : (Analysis.graph graph initial).run analyzer = .ok (result, after)) :
      Step analyzer after
  | function {analyzer after : Analyzer} {definition : Node} {isMethod : Bool}
      {analysis : FunctionAnalysis}
      (run : (Analysis.function definition isMethod).run analyzer = .ok (analysis, after)) :
      Step analyzer after
  | statement {analyzer after : Analyzer} {statement : Node} {running : RefSet} {found : DefUse}
      (run : (Analysis.defUse statement running).run analyzer = .ok (found, after)) :
      Step analyzer after

/-- A session: any number of steps, one after the other. -/
abbrev Steps : Analyzer → Analyzer → Prop :=
  Relation.ReflTransGen Step

namespace Extends

theorem refl (analyzer : Analyzer) : analyzer.Extends analyzer :=
  ⟨.refl analyzer, rfl⟩

theorem trans {first second third : Analyzer} (extension : second.Extends first)
    (extension' : third.Extends second) : third.Extends first :=
  ⟨extension.keeps.trans extension'.keeps, extension'.sameLimit.trans extension.sameLimit⟩

theorem withSymbols (analyzer : Analyzer) (change : SymbolTable → SymbolTable) :
    (analyzer.withSymbols change).Extends analyzer :=
  ⟨.refl analyzer, rfl⟩

end Extends

end Analyzer

namespace Analysis

theorem Changes.iterationLimit_eq {scope : Node → Prop} {before after : Analyzer}
    (changes : Changes scope before after) : after.iterationLimit = before.iterationLimit := by
  induction changes with
  | refl => rfl
  | tail _ change ih =>
      rw [← ih]
      cases change <;> rfl

/-- A step that changes nothing that is known. -/
def Widens {Result : Type} (step : Analysis Result) : Prop :=
  ∀ ⦃before after : Analyzer⦄ ⦃result : Result⦄, step.run before = .ok (result, after) →
    after.Extends before

/-- A step that can be repeated: it asks for nothing that is not known in the end, and so it ends in
the same way when it is taken again, and leaves the analyzer alone. -/
def Settles {Result : Type} (step : Analysis Result) : Prop :=
  ∀ ⦃before after : Analyzer⦄ ⦃result : Result⦄, step.run before = .ok (result, after) →
    after.Extends before ∧
      ∀ later : Analyzer, later.Extends after → step.run later = .ok (result, later)

theorem Settles.widens {Result : Type} {step : Analysis Result} (settles : Settles step) :
    Widens step :=
  fun _ _ _ run => (settles run).1

namespace Widens

variable {First Second : Type} {step : Analysis First} {next : First → Analysis Second}

theorem bind (widens : Widens step) (widensNext : ∀ result, Widens (next result)) :
    Widens (step >>= next) := by
  intro before after result run
  rcases exists_of_run_bind run with ⟨first, between, ran, run⟩
  exact (widens ran).trans (widensNext first run)

theorem get {next : Analyzer → Analysis Second} (widens : ∀ analyzer, Widens (next analyzer)) :
    Widens (MonadState.get >>= next) :=
  fun before _ _ run => widens before run

theorem learnWhen {condition : Prop} [Decidable condition] (change : SymbolTable → SymbolTable)
    {next : Unit → Analysis Second} (widens : Widens (next ())) :
    Widens (if condition then learn change >>= next else next ()) := by
  split
  · refine bind ?_ fun _ => widens
    rintro before _ _ ⟨⟩
    exact .withSymbols before change
  · exact widens

end Widens

namespace Settles

variable {First Second : Type} {step : Analysis First} {next : First → Analysis Second}

theorem pure (result : First) : Settles (Pure.pure result) := by
  rintro before _ _ ⟨⟩
  exact ⟨.refl before, fun _ _ => rfl⟩

theorem bind (settles : Settles step) (settlesNext : ∀ result, Settles (next result)) :
    Settles (step >>= next) := by
  intro before after result run
  rcases exists_of_run_bind run with ⟨first, between, ran, run⟩
  rcases settles ran with ⟨extended, again⟩
  rcases settlesNext first run with ⟨extended', again'⟩
  refine ⟨extended.trans extended', fun later extension => ?_⟩
  apply (run_bind (again later (extended'.trans extension))).trans
  exact again' later extension

theorem lift (computation : Except Failure First) :
    Settles (liftM computation : Analysis First) := by
  intro before after result run
  cases computation with
  | error failure => nomatch run
  | ok found =>
      cases run
      exact ⟨.refl before, fun _ _ => rfl⟩

end Settles

/-- The definitions and uses of a statement are known once they have been found out. -/
theorem settles_defUse (statement : Node) (running : RefSet) :
    Settles (defUse statement running) := by
  intro before after found run
  rcases keeps_of_run_defUse run with ⟨keeps, known⟩
  refine ⟨⟨keeps, (changes_of_run_defUse run).iterationLimit_eq⟩, fun later extended => ?_⟩
  exact run_defUse_of_known (extended.keeps _ _ known)

section

variable {transfer : Transfer} {graph : Graph}
  (settles : ∀ statement running, Settles (transfer statement running))

include settles

theorem settles_runStatements (statements : List Node) (running : DefUse) (progress : Progress) :
    Settles (runStatements transfer statements running progress) := by
  induction statements generalizing running progress with
  | nil => exact .pure _
  | cons statement rest ih => exact (settles statement running.defs).bind fun found => ih _ _

theorem settles_processBlock (id : BlockId) (progress : Progress) :
    Settles (processBlock transfer graph id progress) :=
  (settles_runStatements settles _ _ _).bind fun _ => .pure _

theorem settles_iterate (limit : Nat) (progress : Progress) :
    Settles (iterate transfer graph limit progress) := by
  induction limit generalizing progress with
  | zero => exact .pure _
  | succ limit ih =>
      rw [iterate]
      split
      · exact .pure _
      · exact (settles_processBlock settles _ _).bind ih

/-- All that the analysis of a graph reads of its analyzer beside what is known about statements is
where it is to be cut short. -/
theorem settles_ofGraph (initial : RefSet) : Settles (ofGraph transfer graph initial) := by
  have goesOn : ∀ limit, Settles (do
      let progress ← iterate transfer graph limit (Progress.start graph initial)
      return progress.result (← (graph.controlPairs : Except Failure (List (Node × Node))))) :=
    fun limit => (settles_iterate settles limit _).bind fun _ =>
      (Settles.lift graph.controlPairs).bind fun _ => .pure _
  intro before after result run
  rcases goesOn before.iterationLimit run with ⟨extended, again⟩
  refine ⟨extended, fun later extension => ?_⟩
  rw [← (extended.trans extension).sameLimit] at again
  exact again later extension

end

/-- The analysis of a function may change what the function is taken to mutate, but nothing that is
known about statements. -/
theorem widens_function (definition : Node) (isMethod : Bool) :
    Widens (function definition isMethod) := by
  rw [function, functionWith]
  split
  · refine Widens.get fun before => Widens.learnWhen _ (Settles.widens ?_)
    refine (Settles.lift _).bind fun graph => ?_
    exact (settles_ofGraph settles_defUse _).bind fun _ => .pure _
  · intro before after analysis run
    cases run

end Analysis

namespace Analyzer

theorem Step.extension {before after : Analyzer} (step : Step before after) :
    after.Extends before := by
  cases step with
  | withSymbols change => exact .withSymbols _ change
  | graph run => exact (Analysis.settles_ofGraph Analysis.settles_defUse _ run).1
  | function run => exact Analysis.widens_function _ _ run
  | statement run => exact (Analysis.settles_defUse _ _ run).1

theorem Steps.extension {before after : Analyzer} (steps : Steps before after) :
    after.Extends before := by
  induction steps with
  | refl => exact .refl _
  | tail _ step ih => exact ih.trans step.extension

end Analyzer

namespace Analysis

/-- What the analysis of a graph has found it finds again, however the session goes on, and what has
been found out about a statement is found out again, whatever reaches the statement by then. -/
theorem run_again {before after later : Analyzer} (steps : Analyzer.Steps after later) :
    (∀ {cfg : Graph} {initial : RefSet} {result : AnalysisResult},
      (graph cfg initial).run before = .ok (result, after) →
        (graph cfg initial).run later = .ok (result, later)) ∧
    ∀ {statement : Node} {running : RefSet} {found : DefUse},
      (defUse statement running).run before = .ok (found, after) →
        ∀ running', (defUse statement running').run later = .ok (found, later) := by
  constructor
  · intro cfg initial result run
    exact (settles_ofGraph settles_defUse initial run).2 later steps.extension
  · intro statement running found run running'
    apply run_defUse_of_known
    exact steps.extension.keeps _ _ (keeps_of_run_defUse run).2

/-- A statement that calls a function, `f(a)`. -/
def callingStatement : Node :=
  onLine 1 0 4 (.call (onLine 1 0 1 (.name "f")) [⟨onLine 1 2 3 (.name "a"), none, false, false⟩])

/-- What the call mutates stays as it was, though the function is declared to mutate its first
argument afterwards. -/
theorem run_again_callingStatement : ∃ result after found between,
    (graph (.ofStatements [callingStatement]) .empty).run (.ofSpecs []) = .ok (result, after) ∧
    (graph (.ofStatements [callingStatement]) .empty).run (after.withSymbols fun symbols =>
      symbols.registerFunction { name := "f", updates := [.position 1] }) =
        .ok (result, after.withSymbols fun symbols =>
          symbols.registerFunction { name := "f", updates := [.position 1] }) ∧
    (defUse callingStatement .empty).run (.ofSpecs []) = .ok (found, between) ∧
    (defUse callingStatement .empty).run (between.withSymbols fun symbols =>
      symbols.registerFunction { name := "f", updates := [.position 1] }) =
        .ok (found, between.withSymbols fun symbols =>
          symbols.registerFunction { name := "f", updates := [.position 1] }) := by
  have built : Graph.ofRoot (onLine 1 0 4 (.module [callingStatement])) =
      .ok (.ofStatements [callingStatement]) := rfl
  have isRoot : (onLine 1 0 4 (.module [callingStatement])).IsRoot := .inl ⟨_, rfl⟩
  rcases exists_run_module isRoot (.ofSpecs []) with ⟨result, after, run⟩
  rcases (safe_defUse callingStatement .empty).exists_run (.ofSpecs []) with ⟨found, between, run'⟩
  rw [run_module built] at run
  refine ⟨result, after, found, between, run, ?_, run', ?_⟩
  · exact (run_again (.single (.withSymbols after _))).1 run
  · exact (run_again (.single (.withSymbols between _))).2 run' .empty

end Analysis

end FlowAnalysis
