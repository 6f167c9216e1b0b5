import FlowAnalysis.Proofs.Analysis.Exactness
import FlowAnalysis.Proofs.Analysis.Scopes
import FlowAnalysis.Proofs.ControlFlow.Ending

/-!
# Analyses never fail

Control can end from every block of the graph of a program, so postdominators and control
dependencies exist, and an analysis never fails. What it looks into from a statement nests less
deep than the statement does: so the recursion into functions and classes is never cut short.

The only additions of positions are those of the positions that strings declare. A program built
with overflow checks stops at an addition that wraps around; if the declared positions fit a word,
there is none, and that program does the same.
-/

namespace FlowAnalysis

theorem Graph.Path.lt_size {graph : Graph} (wellFormed : graph.WellFormed)
    {source target : BlockId} {blocks : List BlockId} (path : graph.Path source blocks target)
    (small : source < graph.size) : target < graph.size := by
  induction path with
  | single id => exact small
  | step edge _ ih => exact ih (wellFormed.target_lt _ (Graph.mem_successors.1 edge))

namespace Node

variable {node part child : Node}

/-- A module or the definition of a function. -/
def IsRoot (node : Node) : Prop :=
  (∃ statements, node.shape = .module statements) ∨
    ∃ name params body decorators, node.shape = .definition name params body decorators

theorem IsRoot.exists_graph (isRoot : node.IsRoot) : ∃ graph, Graph.ofRoot node = .ok graph := by
  rcases isRoot with ⟨statements, isModule⟩ | ⟨name, params, body, decorators, isDefinition⟩
  · exact ⟨.ofStatements statements, by rw [Graph.ofRoot, isModule]⟩
  · exact ⟨.ofStatements body, by rw [Graph.ofRoot, isDefinition]⟩

/-! ### Nesting of functions and classes -/

theorem foldl_max_le_iff {start bound : Nat} (values : List Nat) :
    values.foldl max start ≤ bound ↔ start ≤ bound ∧ ∀ value ∈ values, value ≤ bound := by
  induction values generalizing start with
  | nil => simp
  | cons first rest ih =>
      rw [List.foldl_cons, ih, List.forall_mem_cons, Nat.max_le, and_assoc]

/-- How deep functions and classes nest beneath a node. -/
def innerDepth (node : Node) : Nat :=
  (node.children.map scopeDepth).foldl max 0

theorem scopeDepth_eq (node : Node) : node.scopeDepth =
    if Analysis.opensNamedScope node then node.innerDepth + 1 else node.innerDepth := by
  rw [scopeDepth, innerDepth]
  simp

theorem innerDepth_le_iff {bound : Nat} :
    node.innerDepth ≤ bound ↔ ∀ child ∈ node.children, child.scopeDepth ≤ bound := by
  simp [innerDepth, foldl_max_le_iff]

theorem scopeDepth_le_innerDepth (isChild : child ∈ node.children) :
    child.scopeDepth ≤ node.innerDepth :=
  innerDepth_le_iff.1 (Nat.le_refl _) child isChild

theorem innerDepth_le_scopeDepth : node.innerDepth ≤ node.scopeDepth := by
  rw [scopeDepth_eq]
  split <;> omega

theorem scopeDepth_name {id : String} (isName : node.shape = .name id) : node.scopeDepth = 0 := by
  rw [scopeDepth_eq, Analysis.opensNamedScope, innerDepth, children, isName]
  rfl

theorem IsPart.scopeDepth_le (isPart : node.IsPart part) :
    part.scopeDepth ≤ node.innerDepth := by
  rcases isPart.mem_children_or_bindsWithin with isChild | binds
  · exact scopeDepth_le_innerDepth isChild
  · rcases binds with ⟨targets, sources, location, rfl, areChildren⟩
    rw [scopeDepth_eq, Node.binding, Analysis.opensNamedScope]
    apply innerDepth_le_iff.2
    intro child isMember
    have isMember : child ∈ targets ++ sources := by
      simpa [children, Shape.children, Shape.fields, Field.subtrees] using isMember
    rcases areChildren child isMember with isChild | ⟨id, isName, -⟩
    · exact scopeDepth_le_innerDepth isChild
    · simp [scopeDepth_name isName]

theorem Within.scopeDepth_le (within : node.Within part) : part.scopeDepth ≤ node.scopeDepth := by
  induction within with
  | refl => exact Nat.le_refl _
  | tail _ isPart ih =>
      apply Nat.le_trans isPart.scopeDepth_le
      apply Nat.le_trans innerDepth_le_scopeDepth ih

end Node

namespace Analysis

variable {statement inner : Node}

/-- What the analysis looks into nests less deep. -/
theorem LooksInto.scopeDepth_lt (looksInto : LooksInto statement inner) :
    inner.scopeDepth < statement.scopeDepth := by
  have opens : opensNamedScope statement = true := by
    cases looksInto with
    | body isDefinition _ => rw [opensNamedScope, isDefinition]
    | member isClass _ => rw [opensNamedScope, isClass]
  rcases Relation.TransGen.head'_iff.1 looksInto.transGen_isPart with ⟨part, isPart, within⟩
  have isSmall := Nat.le_trans (Node.Within.scopeDepth_le within) isPart.scopeDepth_le
  rw [Node.scopeDepth_eq statement, opens, if_pos rfl]
  exact Nat.lt_succ_of_le isSmall

/-! ### What an analysis depends on -/

section

variable {transfer transfer' : Transfer} {graph : Graph}

theorem runStatements_congr {statements : List Node}
    (same : ∀ statement ∈ statements, transfer statement = transfer' statement)
    (running : DefUse) (progress : Progress) :
    runStatements transfer statements running progress =
      runStatements transfer' statements running progress := by
  induction statements generalizing running progress with
  | nil => rfl
  | cons first rest ih =>
      rcases List.forall_mem_cons.1 same with ⟨sameFirst, sameRest⟩
      simp only [runStatements, sameFirst, ih sameRest]

theorem iterate_congr
    (same : ∀ id, ∀ statement ∈ graph.statements id, transfer statement = transfer' statement)
    (limit : Nat) (progress : Progress) :
    iterate transfer graph limit progress = iterate transfer' graph limit progress := by
  induction limit generalizing progress with
  | zero => rfl
  | succ limit ih =>
      simp only [iterate, processBlock, runStatements_congr (same _), ih]

theorem ofGraph_congr
    (same : ∀ id, ∀ statement ∈ graph.statements id, transfer statement = transfer' statement)
    (initial : RefSet) : ofGraph transfer graph initial = ofGraph transfer' graph initial := by
  rw [ofGraph, ofGraph]
  simp only [iterate_congr same]

theorem functionWith_congr {function : Node}
    (same : ∀ inner, LooksInto function inner → transfer inner = transfer' inner)
    (isMethod : Bool) :
    functionWith transfer function isMethod = functionWith transfer' function isMethod := by
  rw [functionWith, functionWith]
  split
  · next name params body decorators isDefinition =>
      have built : Graph.ofRoot function = .ok (Graph.ofStatements body) := by
        rw [Graph.ofRoot, isDefinition]
      have sameGraph : ∀ initial, ofGraph transfer (Graph.ofStatements body) initial =
          ofGraph transfer' (Graph.ofStatements body) initial :=
        ofGraph_congr fun id statement isPlaced => same statement (.body isDefinition isPlaced)
      have lifted : (liftM (Graph.ofRoot function) : Analysis Graph) =
          pure (Graph.ofStatements body) := by
        rw [built]
        rfl
      simp only [lifted, pure_bind, sameGraph]
  · rfl

theorem memberReferences_congr {members : List Node}
    (same : ∀ member ∈ members, transfer member = transfer' member ∧
      ∀ inner, LooksInto member inner → transfer inner = transfer' inner) :
    memberReferences transfer statement members = memberReferences transfer' statement members := by
  induction members with
  | nil => rfl
  | cons member rest ih =>
      rcases List.forall_mem_cons.1 same with ⟨⟨sameMember, sameInside⟩, sameRest⟩
      rw [memberReferences, memberReferences, functionWith_congr sameInside, sameMember,
        ih sameRest]

/-- What a statement refers to depends on what it looks into. -/
theorem defUseWith_congr
    (same : ∀ inner, Scope statement inner → transfer inner = transfer' inner)
    (running : RefSet) :
    defUseWith transfer statement running = defUseWith transfer' statement running := by
  have sameReferences : ownReferences transfer statement = ownReferences transfer' statement := by
    rw [ownReferences, ownReferences]
    split
    case _ => rfl
    case _ => rfl
    case _ =>
      rw [functionWith_congr fun inner looksInto => same inner (.single looksInto)]
    case _ name bases body decorators isClass =>
      rw [memberReferences_congr]
      intro member isMember
      have looksInto : LooksInto statement member := .member isClass isMember
      exact ⟨same member (.single looksInto),
        fun inner looksInto' => same inner (.tail (.single looksInto) looksInto')⟩
    all_goals rfl
  rw [defUseWith, defUseWith, sameReferences]

end

theorem Scope.scopeDepth_lt (inScope : Scope statement inner) :
    inner.scopeDepth < statement.scopeDepth := by
  induction inScope with
  | single looksInto => exact looksInto.scopeDepth_lt
  | tail _ looksInto ih => exact Nat.lt_trans looksInto.scopeDepth_lt ih

/-- The recursion into functions and classes is never cut short. -/
theorem defUse_eq (statement : Node) (running : RefSet) :
    defUse statement running = remembered (defUseWith defUse) statement running := by
  rw [defUse, remembered, remembered]
  rw [defUseWith_congr fun inner inScope => ?_]
  funext reaching
  exact if_pos inScope.scopeDepth_lt

/-! ### Additions of words -/

end Analysis

namespace Node

variable {node part : Node}

/-- The declarations in a string. -/
def declarations (node : Node) : List Declaration :=
  match node.shape with
  | .literal (.string text) => Declaration.ofText text
  | _ => []

/-- No string in a node declares positions in lines beyond the machine words. -/
def DeclaresInRange (node : Node) : Prop :=
  ∀ inner ∈ node.walk, ∀ declaration ∈ inner.declarations,
    inner.location.firstLine + declaration.start.1 < Location.wordCount ∧
      inner.location.firstLine + declaration.stop.1 < Location.wordCount

instance (node : Node) : Decidable node.DeclaresInRange :=
  inferInstanceAs (Decidable (∀ inner ∈ node.walk, ∀ declaration ∈ inner.declarations, _ ∧ _))

theorem DeclaresInRange.of_isPart (inRange : node.DeclaresInRange) (isPart : node.IsPart part) :
    part.DeclaresInRange := by
  have ofChild : ∀ child ∈ node.children, child.DeclaresInRange :=
    fun child isChild inner isInner =>
      inRange inner (walk_subset_of_mem_children isChild isInner)
  rcases isPart.mem_children_or_bindsWithin with isChild | binds
  · exact ofChild part isChild
  · rcases binds with ⟨targets, sources, location, rfl, areChildren⟩
    intro inner isInner
    rw [walk_eq] at isInner
    rcases List.mem_cons.1 isInner with rfl | isInner
    · exact List.forall_mem_nil _
    · rcases List.mem_flatMap.1 isInner with ⟨child, isMember, isInner⟩
      have isMember : child ∈ targets ++ sources := by
        simpa [children, Node.binding, Shape.children, Shape.fields, Field.subtrees] using isMember
      rcases areChildren child isMember with isChild | ⟨id, isName, -⟩
      · exact ofChild child isChild inner isInner
      · have isLeaf : child.children = [] := by
          rw [children, isName]
          rfl
        rw [walk_eq, isLeaf] at isInner
        rcases List.mem_singleton.1 isInner with rfl
        rw [declarations, isName]
        exact List.forall_mem_nil _

theorem DeclaresInRange.of_within (inRange : node.DeclaresInRange) (within : node.Within part) :
    part.DeclaresInRange := by
  induction within with
  | refl => exact inRange
  | tail _ isPart ih => exact ih.of_isPart isPart

end Node

namespace Analysis

variable {transfer : Transfer} {stop : Failure}

/-- Finds out about a statement, and stops with a failure if an addition has wrapped around. -/
def checkingAdditions (stop : Failure) (transfer : Transfer) : Transfer :=
    fun statement running => do
  let found ← transfer statement running
  if statement.DeclaresInRange then return found else throw stop

theorem checkingAdditions_eq (inRange : statement.DeclaresInRange) :
    checkingAdditions stop transfer statement = transfer statement := by
  funext running
  simp [checkingAdditions, inRange]

/-- The definitions and uses of a statement in a program built with overflow checks. -/
def checkedDefUse (stop : Failure) (statement : Node) (running : RefSet) :
    Analysis DefUse :=
  remembered
    (checkingAdditions stop <| defUseWith fun inner reaching =>
      if inner.scopeDepth < statement.scopeDepth then checkedDefUse stop inner reaching
      else pure .empty)
    statement running
termination_by statement.scopeDepth

/-- Where no addition wraps around, overflow checks make no difference. -/
theorem checkedDefUse_eq (inRange : statement.DeclaresInRange) :
    checkedDefUse stop statement = defUse statement := by
  induction depthEq : statement.scopeDepth using Nat.strongRecOn generalizing statement with
  | ind depth ih =>
      funext running
      rw [checkedDefUse, defUse, remembered, remembered, checkingAdditions_eq inRange,
        defUseWith_congr fun inner inScope => ?_]
      funext reaching
      have isSmaller := inScope.scopeDepth_lt
      have inRange' := inRange.of_within inScope.transGen_isPart.to_reflTransGen
      rw [if_pos isSmaller, if_pos isSmaller, ih _ (depthEq ▸ isSmaller) inRange' rfl]

/-- Analyzes a module, or the body of a function with nothing defined on entry, with overflow
checks. -/
def checkedModule (stop : Failure) (root : Node) : Analysis AnalysisResult := do
  ofGraph (checkedDefUse stop) (← (Graph.ofRoot root : Except Failure Graph)) .empty

/-- Analyzes a function with overflow checks. -/
def checkedFunction (stop : Failure) (definition : Node) (isMethod : Bool) :
    Analysis FunctionAnalysis :=
  functionWith (checkedDefUse stop) definition isMethod

theorem checkedModule_eq {root : Node} (isRoot : root.IsRoot) (inRange : root.DeclaresInRange) :
    checkedModule stop root = Analysis.module root := by
  rcases isRoot.exists_graph with ⟨graph, built⟩
  rcases Graph.ofRoot_eq_ok built with ⟨code, rfl, hasCode⟩
  have areParts : root.parts = code := by
    rcases hasCode with isModule | ⟨_, _, _, isDefinition⟩
    · rw [Node.parts, isModule]
    · rw [Node.parts, isDefinition]
  have sameGraph : ofGraph (checkedDefUse stop) (.ofStatements code) .empty =
      Analysis.graph (.ofStatements code) .empty := by
    refine ofGraph_congr (fun id statement isPlaced => ?_) .empty
    rcases Graph.exists_within_of_mem_statements isPlaced with ⟨part, isPart, within⟩
    rw [← areParts] at isPart
    exact checkedDefUse_eq ((inRange.of_isPart isPart).of_within within)
  rw [checkedModule, Analysis.module, built]
  exact sameGraph

theorem checkedFunction_eq {definition : Node} (inRange : definition.DeclaresInRange)
    (isMethod : Bool) :
    checkedFunction stop definition isMethod = function definition isMethod := by
  apply functionWith_congr
  intro inner looksInto
  exact checkedDefUse_eq (inRange.of_within looksInto.transGen_isPart.to_reflTransGen)

/-! ### Programs -/

/-- Nothing at all is asked of what is known. -/
abbrev Anything : String → DefUse → Prop :=
  fun _ _ => True

theorem Safe.exists_run {Result : Type} {step : Analysis Result} (safe : Safe Anything step)
    (analyzer : Analyzer) : ∃ result after, step.run analyzer = .ok (result, after) := by
  rcases safe analyzer fun _ _ _ => trivial with ⟨result, after, run, -, -, -⟩
  exact ⟨result, after, run⟩

theorem safe_defUse (statement : Node) (running : RefSet) :
    Safe Anything (defUse statement running) :=
  defUse_safe (fun _ _ => trivial) (fun _ _ => trivial) (trivial : (fun _ => True) statement) running

theorem exists_run_module {root : Node} (isRoot : root.IsRoot) (analyzer : Analyzer) :
    ∃ result after, (Analysis.module root).run analyzer = .ok (result, after) := by
  have transfers : Transfers Anything (fun _ => True) (fun _ _ _ => True) defUse :=
    ⟨fun {statement} _ running => safe_defUse statement running, fun _ _ => trivial⟩
  rcases isRoot.exists_graph with ⟨graph, built⟩
  rcases transfers.ofGraph built (fun _ _ _ => trivial) .empty with ⟨_, -, succeeds⟩
  rcases succeeds analyzer fun _ _ _ => trivial with ⟨result, after, run, -⟩
  exact ⟨result, after, (run_module built analyzer).trans run⟩

theorem exists_run_function {definition : Node} {name : String}
    {params body decorators : List Node}
    (isDefinition : definition.shape = .definition name params body decorators) (isMethod : Bool)
    (analyzer : Analyzer) :
    ∃ analysis after,
      (Analysis.function definition isMethod).run analyzer = .ok (analysis, after) := by
  have closed : ∀ {outer inner : Node}, Relation.ReflTransGen LooksInto definition outer →
      LooksInto outer inner → Relation.ReflTransGen LooksInto definition inner :=
    fun inScope looksInto => inScope.tail looksInto
  apply Safe.exists_run
  apply functionWith_safe closed _ isDefinition .refl isMethod
  exact fun {statement} _ running => safe_defUse statement running

/-- For every module or function there is a graph, and control can end from each of its blocks. So
there are postdominators and control dependencies, and any analyzer can analyze the program,
whatever functions and classes nest in it. Where additions of positions may wrap around, this holds
without conditions; overflow checks make no difference as long as the strings of the program declare
positions that fit a word. -/
theorem exists_analyses {root : Node} (isRoot : root.IsRoot) :
    ∃ graph, Graph.ofRoot root = .ok graph ∧
      (∀ id < graph.size, ∃ blocks exit, graph.Path id blocks exit ∧ exit < graph.size ∧
        graph.successors exit = []) ∧
      (∃ postdominators, Postdominators.ofGraph graph = .ok postdominators) ∧
      (∃ dependencies, graph.controlDependencies = .ok dependencies) ∧
      (∃ controls, graph.controlPairs = .ok controls) ∧
      (∀ analyzer : Analyzer,
        (∃ result after, (Analysis.module root).run analyzer = .ok (result, after)) ∧
        (∀ statement running, ∃ found after,
          (defUse statement running).run analyzer = .ok (found, after)) ∧
        ∀ name params body decorators, root.shape = .definition name params body decorators →
          ∀ isMethod, ∃ analysis after,
            (Analysis.function root isMethod).run analyzer = .ok (analysis, after)) ∧
      (root.DeclaresInRange → ∀ stop, checkedModule stop root = Analysis.module root ∧
        ∀ isMethod, checkedFunction stop root isMethod = Analysis.function root isMethod) := by
  rcases isRoot.exists_graph with ⟨graph, built⟩
  have wellFormed := (Graph.ofRoot_laidOut built).wellFormed
  have someExit : graph.exits.isEmpty = false :=
    List.isEmpty_eq_false_iff.2 (Graph.exits_ne_nil built)
  rcases exists_controlPairs built with ⟨controls, found⟩
  refine ⟨graph, built, ?canEnd, ?postdominators, ?dependencies, ⟨controls, found⟩, ?analyses,
    fun inRange stop => ⟨checkedModule_eq isRoot inRange, checkedFunction_eq inRange⟩⟩
  case canEnd =>
    intro id small
    rcases Graph.canEnd_of_lt_size built small with ⟨blocks, exit, path, isLast⟩
    exact ⟨blocks, exit, path, path.lt_size wellFormed small, isLast⟩
  case postdominators =>
    rw [Postdominators.ofGraph, someExit]
    exact ⟨_, rfl⟩
  case dependencies =>
    rw [Graph.controlDependencies, Postdominators.ofGraph, someExit]
    exact ⟨_, rfl⟩
  case analyses =>
    intro analyzer
    refine ⟨exists_run_module isRoot analyzer, fun statement running =>
      (safe_defUse statement running).exists_run analyzer, ?_⟩
    intro name params body decorators isDefinition isMethod
    exact exists_run_function isDefinition isMethod analyzer

/-- A module with a string that declares a position behind the largest word. -/
def overflowingModule : Node :=
  let text := "defs: [\x7b\"name\": \"x\", \"pos\": [[18446744073709551615, 0], [0, 1]]\x7d]"
  ⟨.module [onLine 1 0 70 (.literal (.string text))], ⟨1, 0, 1, 70, none⟩⟩

example : ((checkedModule .noExitBlock overflowingModule).run (.ofSpecs [])).isOk = false ∧
    ((Analysis.module overflowingModule).run (.ofSpecs [])).isOk = true := by
  decide +kernel

/-- A loop that is left in its first round or entered again, by a loop in its body. -/
def restlessLoop : Node :=
  onLine 2 2 9 (.whileLoop (onLine 2 8 9 (.name "c"))
    [onLine 3 4 9 (.whileLoop (onLine 3 10 11 (.name "d")) [onLine 4 6 11 .breakLoop]
      [onLine 5 6 14 .continueLoop])] [])

/-- A block whose handler raises again, with a class in it that has a method. -/
def raisingBlock : Node :=
  onLine 6 2 6 (.tryBlock [onLine 7 4 9 (.raiseError none)]
    [⟨none, none, [onLine 8 4 9 (.raiseError none)], ⟨8, 2, 8, 9, none⟩⟩] []
    [onLine 9 4 11 (.classDefinition "K" []
      [onLine 10 6 20 (.definition "method" [] [restlessLoop] [])] [])])

/-- A function in which control often jumps can be analyzed. -/
theorem exists_analyses_restless :
    (onLine 1 0 20 (.definition "f" [] [restlessLoop, raisingBlock] [])).IsRoot ∧
      ∀ analyzer : Analyzer, ∃ analysis after, (Analysis.function
        (onLine 1 0 20 (.definition "f" [] [restlessLoop, raisingBlock] [])) false).run analyzer =
          .ok (analysis, after) ∧
        ∀ stop, (checkedFunction stop
          (onLine 1 0 20 (.definition "f" [] [restlessLoop, raisingBlock] [])) false).run analyzer =
            .ok (analysis, after) := by
  have isRoot : (onLine 1 0 20 (.definition "f" [] [restlessLoop, raisingBlock] [])).IsRoot :=
    .inr ⟨"f", [], [restlessLoop, raisingBlock], [], rfl⟩
  have inRange : (onLine 1 0 20
      (.definition "f" [] [restlessLoop, raisingBlock] [])).DeclaresInRange := by
    decide +kernel
  rcases exists_analyses isRoot with ⟨_, -, -, -, -, -, analyses, checked⟩
  refine ⟨isRoot, fun analyzer => ?_⟩
  rcases (analyses analyzer).2.2 _ _ _ _ rfl false with ⟨analysis, after, run⟩
  refine ⟨analysis, after, run, fun stop => ?_⟩
  rw [(checked inRange stop).2 false, run]

end Analysis

end FlowAnalysis
