import FlowAnalysis.Proofs.ControlFlow.Fencing

/-!
# A last clause is on the way out

Control that leaves the body of a `try`, a handler or the `else` clause comes to the first block of
the `finally` clause, unless it leaves with a `raise`, `break` or `continue`: a jump goes straight
to the handlers or the loop around the `try`, and `finally` clauses on the way are not run.
-/

namespace FlowAnalysis

namespace Command

/-! ### Every `try` with a last clause is listed -/

theorem closingsOfAlternatives_ofClause (header : Node) (body : List Command) :
    closingsOfAlternatives (.ofClause header body) = closingsOfAll body := by
  rw [Alternatives.ofClause]
  split
  · next empty =>
      rw [List.isEmpty_iff.1 empty]
      rfl
  · rfl

theorem closingsOfAlternatives_ofClauses (elifs : List (ElifClause Node)) (last : Alternatives) :
    closingsOfAlternatives (ofClauses elifs last) =
      (elifs.flatMap fun clause => closingsOfAll (ofNodes clause.body)) ++
        closingsOfAlternatives last := by
  induction elifs with
  | nil => rfl
  | cons clause rest ih =>
      rw [ofClauses, closingsOfAlternatives, ih, List.flatMap_cons, List.append_assoc]

theorem closingsOfHandlers_ofHandlers (handlers : List (ExceptHandler Node)) :
    closingsOfHandlers (ofHandlers handlers) =
      handlers.flatMap fun handler => closingsOfAll (ofNodes handler.statements) := by
  rw [ofHandlers_eq_map]
  induction handlers with
  | nil => rfl
  | cons handler rest ih => rw [List.map_cons, closingsOfHandlers, ih, List.flatMap_cons]

theorem closings_subset_of_mem {statements : List Node} {statement : Node}
    (member : statement ∈ statements) :
    closings (ofNode statement) ⊆ closingsOfAll (ofNodes statements) := by
  induction statements with
  | nil => cases member
  | cons first rest ih =>
      rw [ofNodes, closingsOfAll]
      rcases List.mem_cons.1 member with rfl | later
      · exact List.subset_append_left _ _
      · exact List.Subset.trans (ih later) (List.subset_append_right _ _)

theorem closingsOfAll_subset {statement : Node} {list : List Node}
    (runs : list ∈ statement.statementLists) :
    closingsOfAll (ofNodes list) ⊆ closings (ofNode statement) := by
  rcases statement with ⟨shape, location⟩
  cases shape
  case conditional cond body elifs orelse =>
    simp only [Node.statementLists, List.mem_cons, List.mem_append, List.mem_map,
      Option.mem_toList] at runs
    rw [ofNode, closings, closingsOfAlternatives_ofClauses]
    rcases runs with rfl | ⟨clause, isClause, rfl⟩ | ⟨node, isElse, rfl⟩
    · exact List.subset_append_left _ _
    · apply List.subset_append_of_subset_right
      apply List.subset_append_of_subset_left
      exact fun command isCommand => List.mem_flatMap.2 ⟨clause, isClause, isCommand⟩
    · rw [Option.mem_def.1 isElse, ofOrelse_some, closingsOfAlternatives_ofClause]
      apply List.subset_append_of_subset_right
      exact List.subset_append_right _ _
  case whileLoop cond body orelse =>
    simp only [Node.statementLists, List.mem_cons, List.not_mem_nil, or_false] at runs
    rw [ofNode, closings]
    rcases runs with rfl | rfl
    · exact List.subset_append_left _ _
    · exact List.subset_append_right _ _
  case forLoop targets iter body orelse declLocation =>
    simp only [Node.statementLists, List.mem_cons, List.not_mem_nil, or_false] at runs
    rw [ofNode, closings]
    rcases runs with rfl | rfl
    · exact List.subset_append_left _ _
    · exact List.subset_append_right _ _
  case withBlock items body =>
    rcases List.mem_singleton.1 runs with rfl
    rw [ofNode, closings]
    exact List.Subset.refl _
  case tryBlock body handlers orelse finalbody =>
    simp only [Node.statementLists, List.mem_cons, List.mem_append, List.mem_map,
      List.not_mem_nil, or_false] at runs
    rw [ofNode, closings, closingsOfHandlers_ofHandlers]
    intro command isCommand
    simp only [List.mem_append, List.mem_flatMap]
    rcases runs with rfl | ⟨handler, isHandler, rfl⟩ | rfl | rfl
    · simp [isCommand]
    · exact .inl (.inl (.inl (.inl ⟨handler, isHandler, isCommand⟩)))
    · simp [isCommand]
    · simp [isCommand]
  all_goals simp [Node.statementLists] at runs

theorem closings_subset_of_standsIn {statements : List Node} {statement : Node}
    (stands : Node.StandsIn statements statement) :
    closings (ofNode statement) ⊆ closingsOfAll (ofNodes statements) := by
  induction stands with
  | here member => exact closings_subset_of_mem member
  | within _ runs member ih =>
      have inList := List.Subset.trans (closings_subset_of_mem member) (closingsOfAll_subset runs)
      exact List.Subset.trans inList ih

theorem mem_closings_ofNode {statement : Node} {body orelse finalbody : List Node}
    {handlers : List (ExceptHandler Node)}
    (isTry : statement.shape = .tryBlock body handlers orelse finalbody)
    (hasLast : finalbody ≠ []) : ofNode statement ∈ closings (ofNode statement) := by
  rcases statement with ⟨shape, location⟩
  rcases isTry with rfl
  have notEmpty : (ofNodes finalbody).isEmpty = false := by
    rw [isEmpty_ofNodes]
    simpa using hasLast
  rw [ofNode, closings, notEmpty]
  simp

end Command

namespace Layout

open Command

theorem exists_fences_of_run {program : List Command} {exit entry : BlockId} {final : Layout}
    (byName : AllJumpByName program)
    (run : (layProgram program).run {} = ((exit, entry), final)) :
    ∃ fences : List Fence, fences.map Fence.command = closingsOfAll program ∧
      (fences.map Fence.join).Nodup ∧
      ∀ fence ∈ fences, fence.Encloses final.blocks final.edges := by
  rw [layProgram] at run
  rcases exists_of_run_bind run with ⟨exit, exitLayout, exitRun, run⟩
  rcases exists_of_run_bind run with ⟨entry, entryLayout, entryRun, run⟩
  rcases exists_of_run_bind run with ⟨stop, laid, bodyRun, pureRun⟩
  rcases of_run_pure pureRun with ⟨same, rfl⟩
  generalize outsideEq : ({ innermostLoop := none, handler := 0, loopVariables := [] } :
    Surroundings).guardedBy exit = around at bodyRun
  have exiting : Moves around [] {} exitLayout [(exit, .write), (exit, .enter .exceptionalExit)] :=
    .of_newBlock (by simp [InRange]) exitRun
  have entering :
      Moves around [] exitLayout entryLayout [(entry, .write), (entry, .enter .entry)] :=
    .of_newBlock exiting.inRange entryRun
  have fits : around.Fits entryLayout.blocks entryLayout.size := by
    apply entering.fits
    rw [← outsideEq]
    intro jump target goes
    cases jump with
    | raising =>
        have isExit : exit = target := Option.some.inj goes
        subst isExit
        exact ⟨exiting.knows.lt (exit, .write) (by simp), .exceptionalExit, by decide,
          exiting.knows.role (by simp)⟩
    | breaking => cases goes
    | continuing => cases goes
  rcases layCommands_follow around program byName (by simp) entering.knows fits entering.inRange
    bodyRun with ⟨-, fences, fenced⟩
  exact ⟨fences, fenced.commands_eq, fenced.distinct, fenced.encloses⟩

end Layout

namespace Fence

variable {fence : Fence} {graph : Graph} {source target : BlockId} {blocks : List BlockId}

/-- Control leaves over the edge of a jump. -/
def Jumps (fence : Fence) (graph : Graph) (source target : BlockId) : Prop :=
  fence.around.SendsTo (graph.statements source) target

/-- A path that leaves the blocks in front of the last clause leaves them for the last clause, or
over the edge of a jump. -/
theorem exists_exit (encloses : fence.Encloses graph.blocks graph.edges)
    (path : graph.Path source blocks target) (inside : fence.Guards source)
    (outside : ¬ fence.Guards target) :
    ∃ before id next after, blocks = before ++ id :: next :: after ∧
      (∀ block ∈ before ++ [id], fence.Guards block) ∧ ¬ fence.Guards next ∧
      (next = fence.last ∨ fence.Jumps graph id next) := by
  induction path with
  | single => exact absurd inside outside
  | @step source next target blocks edge rest ih =>
      by_cases staysInside : fence.Guards next
      · rcases ih staysInside outside with ⟨before, id, next', after, rfl, allInside, leaves⟩
        refine ⟨source :: before, id, next', after, rfl, ?_, leaves⟩
        intro block isBlock
        rcases List.mem_cons.1 isBlock with rfl | later
        · exact inside
        · exact allInside block later
      · have leaves := encloses.leaves _ (Graph.mem_successors.1 edge) inside
        have starts : ∃ after, blocks = next :: after := by
          cases rest with
          | single => exact ⟨[], rfl⟩
          | step _ _ => exact ⟨_, rfl⟩
        rcases starts with ⟨after, rfl⟩
        exact ⟨[], source, next, after, rfl, by simpa using inside, staysInside,
          leaves.resolve_left staysInside⟩

/-- If control can leave the blocks in front of the last clause from a reachable one of them, the
last clause is reachable, unless it is a jump that leaves. -/
theorem last_mem_reachable_or_jumps (encloses : fence.Encloses graph.blocks graph.edges)
    (wellFormed : graph.WellFormed) (reached : source ∈ graph.reachable)
    (path : graph.Path source blocks target) (inside : fence.Guards source)
    (outside : ¬ fence.Guards target) :
    fence.last ∈ graph.reachable ∨
      ∃ id ∈ blocks, ∃ next ∈ blocks, fence.Guards id ∧ fence.Jumps graph id next := by
  rcases exists_exit encloses path inside outside with
    ⟨before, id, next, after, rfl, allInside, -, toLast | jumps⟩
  · have isNext : next ∈ before ++ id :: next :: after := by simp
    exact .inl (toLast ▸ wellFormed.mem_reachable_of_mem path reached isNext)
  · exact .inr ⟨id, by simp, next, by simp, allInside id (by simp), jumps⟩

end Fence

namespace Graph

/-- Every `try` with a last clause has its own blocks in the graph of a module or function. A path
that leaves those of its body, its handlers and its `else` clause comes to the first block of the
last clause, or it leaves over the edge of a jump to a block from before the `try`. So the last
clause is reachable if control can leave a reachable one of these blocks other than by a jump. -/
theorem exists_fences {root : Node} {graph : Graph} (built : ofRoot root = .ok graph) :
    ∃ fences : List Fence,
      fences.map Fence.command = Command.closingsOfAll (Command.ofNodes root.body) ∧
      (fences.map Fence.join).Nodup ∧
      (∀ {statement : Node} {body orelse finalbody : List Node}
        {handlers : List (ExceptHandler Node)}, Node.StandsIn root.body statement →
        statement.shape = .tryBlock body handlers orelse finalbody → finalbody ≠ [] →
          ∃ fence ∈ fences, fence.command = Command.ofNode statement) ∧
      ∀ fence ∈ fences, fence.Encloses graph.blocks graph.edges ∧
        (∀ {source target : BlockId} {blocks : List BlockId}, graph.Path source blocks target →
          fence.Guards source → ¬ fence.Guards target →
            ∃ before id next after, blocks = before ++ id :: next :: after ∧
              (∀ block ∈ before ++ [id], fence.Guards block) ∧ ¬ fence.Guards next ∧
              (next = fence.last ∨ fence.Jumps graph id next)) ∧
        ∀ {source target : BlockId} {blocks : List BlockId}, source ∈ graph.reachable →
          graph.Path source blocks target → fence.Guards source → ¬ fence.Guards target →
            fence.last ∈ graph.reachable ∨
              ∃ id ∈ blocks, ∃ next ∈ blocks, fence.Guards id ∧ fence.Jumps graph id next := by
  have wellFormed := (ofRoot_laidOut built).wellFormed
  have byName := Command.allJumpByName_ofNodes root.body
  rcases ofRoot_eq_ofCommands built with rfl
  rcases Layout.exists_fences_of_run byName rfl with ⟨fences, commandsEq, distinct, enclose⟩
  refine ⟨fences, commandsEq, distinct, ?listed, fun fence isFence => ?enclosed⟩
  case listed =>
    intro statement body orelse finalbody handlers stands isTry hasLast
    have isClosing := Command.closings_subset_of_standsIn stands
      (Command.mem_closings_ofNode isTry hasLast)
    rw [← commandsEq] at isClosing
    exact List.mem_map.1 isClosing
  case enclosed =>
    have encloses := enclose fence isFence
    exact ⟨encloses, fun path => Fence.exists_exit encloses path,
      fun reached path => Fence.last_mem_reachable_or_jumps encloses wellFormed reached path⟩

/-- A `try` whose body may leave the loop around it. -/
def breakingTry : Node :=
  ⟨.tryBlock [⟨.conditional ⟨.name "a", default⟩ [⟨.breakLoop, default⟩] [] none, default⟩] [] []
    [⟨.pass, default⟩], default⟩

/-- A loop around it. -/
def breakingLoop : Node :=
  ⟨.module [⟨.whileLoop ⟨.name "c", default⟩ [breakingTry] [], default⟩], default⟩

/-- The `break` goes behind the loop, and control that goes on comes to the last clause. -/
theorem exists_fences_breakingLoop : ∃ (graph : Graph) (fence : Fence),
    ofRoot breakingLoop = .ok graph ∧ fence.command = Command.ofNode breakingTry ∧
    fence.Encloses graph.blocks graph.edges ∧ fence.join = 5 ∧ fence.last = 11 ∧
    fence.Jumps graph 8 3 ∧ fence.last ∈ graph.reachable := by
  have built : ofRoot breakingLoop = .ok (ofCommands (Command.ofNodes breakingLoop.body)) := rfl
  generalize graphEq : ofCommands (Command.ofNodes breakingLoop.body) = graph at built
  have stands : Node.StandsIn breakingLoop.body breakingTry :=
    .within (.here (List.mem_singleton_self _)) List.mem_cons_self (List.mem_singleton_self _)
  have hasLast : [(⟨.pass, default⟩ : Node)] ≠ [] := List.cons_ne_nil _ _
  rcases exists_fences built with ⟨fences, -, -, listed, enclosed⟩
  rcases listed stands rfl hasLast with ⟨fence, isFence, commandEq⟩
  rcases enclosed fence isFence with ⟨encloses, exits, reaches⟩
  have onlyJoin : ∀ id < graph.size, roleAt graph.blocks id = some .tryJoin → id = 5 := by
    rw [← graphEq]
    decide +kernel
  have onlyLast : ∀ id < graph.size, roleAt graph.blocks id = some .finallyBody → id = 11 := by
    rw [← graphEq]
    decide +kernel
  have joinLt := encloses.join_lt
  have lastLt := encloses.last_lt
  have stopLe : fence.stop ≤ graph.size := encloses.stop_le
  have joinEq : fence.join = 5 := onlyJoin _ (by lia) encloses.join_role
  have lastEq : fence.last = 11 := onlyLast _ (by lia) encloses.last_role
  have guards : ∀ {id : BlockId}, fence.Guards id ↔ 5 < id ∧ id < 11 := by
    simp [Fence.Guards, joinEq, lastEq]
  refine ⟨graph, fence, built, commandEq, encloses, joinEq, lastEq, ?breaks, ?goesOn⟩
  case breaks =>
    have path : graph.Path 8 [8, 3] 3 := by
      rw [← graphEq]
      exact .step (by decide +kernel) (.single _)
    rcases exits path (guards.2 (by decide)) (mt guards.1 (by decide)) with
      ⟨before, id, next, after, blocksEq, -, -, toLast | jumps⟩
    all_goals
      have lengths := congrArg List.length blocksEq
      simp only [List.length_append, List.length_cons, List.length_nil] at lengths
      have isEmpty : before = [] := List.eq_nil_of_length_eq_zero (by lia)
      subst isEmpty
      rcases blocksEq
    · cases lastEq.symm.trans toLast.symm
    · exact jumps
  case goesOn =>
    have reached : 7 ∈ graph.reachable := by
      rw [← graphEq]
      decide +kernel
    have path : graph.Path 7 [7, 10, 11] 11 := by
      rw [← graphEq]
      exact .step (by decide +kernel) (.step (by decide +kernel) (.single _))
    have noJump : ∀ id ∈ [7, 10, 11], ∀ statement ∈ graph.statements id,
        statement.jump? = none := by
      rw [← graphEq]
      decide +kernel
    rcases reaches reached path (guards.2 (by decide)) (mt guards.1 (by decide)) with
      isReached | ⟨id, onPath, next, -, -, statement, isStatement, jump, isJump, -⟩
    · exact isReached
    · rw [noJump id onPath statement isStatement] at isJump
      cases isJump

/-- A `try` without handlers whose body raises. -/
def raisingTry : Node :=
  ⟨.tryBlock [⟨.raiseError none, default⟩] [] [] [⟨.pass, default⟩], default⟩

/-- The exception leaves the program from the body of the `try`, and the last clause, which nothing
else leads to, is not reached. -/
theorem passes_by_raisingTry : ∃ graph, ofRoot ⟨.module [raisingTry], default⟩ = .ok graph ∧
    graph.statements 3 = [⟨.raiseError none, default⟩] ∧ 3 ∈ graph.reachable ∧
    graph.Path 3 [3, graph.exceptionalExit] graph.exceptionalExit ∧
    roleAt graph.blocks 5 = some .finallyBody ∧ graph.statements 5 = [⟨.pass, default⟩] ∧
    5 ∉ [3, graph.exceptionalExit] ∧ 5 ∉ graph.reachable := by
  refine ⟨_, rfl, rfl, by decide, .step (by decide) (.single _), rfl, rfl, by decide, by decide⟩

end Graph

end FlowAnalysis
