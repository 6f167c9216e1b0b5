import FlowAnalysis.Proofs.ControlFlow.Execution
import FlowAnalysis.Proofs.ControlFlow.Region

/-!
# Graphs realize executions

`Graph.Finishes` is what control does from a point on until it ends: it meets the statements of a
block one by one and then crosses to a block behind an edge. Commands that lie between two points
are realized there: control finishes from the first point on exactly by one of their executions and,
depending on how that ends, by going on at the second point or at the target of a jump. The number
of moves bounds what is left, so that rounds of a loop can be taken off one after the other.
-/

namespace FlowAnalysis

namespace Graph

/-- Control ends after a number of moves from a point, having met some statements, at the
exceptional exit or elsewhere. -/
inductive Finishes (graph : Graph) : Nat → Point → List Node → Bool → Prop where
  | stop {point : Point} (ends : graph.EndsIn point []) :
      Finishes graph 0 point [] (point.block == graph.exceptionalExit)
  | meet {point : Point} {statement : Node} {moves : Nat} {trace : List Node} {raised : Bool}
      (next : graph.At point statement)
      (rest : Finishes graph moves ⟨point.block, point.offset + 1⟩ trace raised) :
      Finishes graph (moves + 1) point (statement :: trace) raised
  | cross {point : Point} {targets : List BlockId} {target : BlockId} {moves : Nat}
      {trace : List Node} {raised : Bool} (ends : graph.EndsIn point targets)
      (edge : target ∈ targets) (rest : Finishes graph moves ⟨target, 0⟩ trace raised) :
      Finishes graph (moves + 1) point trace raised

/-- How control finishes after an execution between two points. A jump without a target ends at
once, but not at the exceptional exit. -/
def Continues (graph : Graph) (around : Surroundings) (stop : Point) :
    Outcome → Nat → List Node → Bool → Prop
  | .finished, moves, trace, raised => graph.Finishes moves stop trace raised
  | .jumped jump, moves, trace, raised =>
      match around.target? jump with
      | some target => graph.Finishes moves ⟨target, 0⟩ trace raised
      | none => trace = [] ∧ raised = false

/-- From some points on, control finishes exactly by some executions and by going on from how they
end, with no more moves than at the start. -/
structure Realizes (graph : Graph) (around : Surroundings) (starts : List Point) (stop : Point)
    (executions : Executions) : Prop where
  complete : ∀ {start : Point} {moves : Nat} {trace : List Node} {raised : Bool}, start ∈ starts →
    graph.Finishes moves start trace raised →
      ∃ before outcome after left, trace = before ++ after ∧ left ≤ moves ∧
        executions before outcome ∧ graph.Continues around stop outcome left after raised
  sound : ∀ {before after : List Node} {outcome : Outcome} {left : Nat} {raised : Bool},
    executions before outcome → graph.Continues around stop outcome left after raised →
      ∃ start ∈ starts, ∃ moves, graph.Finishes moves start (before ++ after) raised

variable {graph : Graph} {around : Surroundings}

/-! ### Moves -/

theorem EndsIn.not_at {point : Point} {targets : List BlockId} {statement : Node}
    (ends : graph.EndsIn point targets) : ¬graph.At point statement := by
  intro next
  rw [At, ends.1] at next
  simp at next

theorem EndsIn.mem_iff {point : Point} {targets targets' : List BlockId}
    (ends : graph.EndsIn point targets) (ends' : graph.EndsIn point targets') (target : BlockId) :
    target ∈ targets ↔ target ∈ targets' :=
  (ends.2 target).symm.trans (ends'.2 target)

namespace Finishes

variable {point : Point} {moves : Nat} {trace : List Node} {raised : Bool}

theorem of_at {statement : Node} (finishes : graph.Finishes moves point trace raised)
    (next : graph.At point statement) :
    ∃ left rest, left < moves ∧ trace = statement :: rest ∧
      graph.Finishes left ⟨point.block, point.offset + 1⟩ rest raised := by
  cases finishes with
  | stop ends => exact absurd next ends.not_at
  | @meet _ statement' left rest _ next' finishes =>
      have same : statement' = statement := Option.some.inj (next'.symm.trans next)
      subst same
      exact ⟨left, rest, Nat.lt_succ_self _, rfl, finishes⟩
  | cross ends => exact absurd next ends.not_at

theorem of_endsIn {targets : List BlockId} (finishes : graph.Finishes moves point trace raised)
    (ends : graph.EndsIn point targets) (someTarget : targets ≠ []) :
    ∃ target ∈ targets, ∃ left, left < moves ∧ graph.Finishes left ⟨target, 0⟩ trace raised := by
  cases finishes with
  | stop ends' =>
      rcases List.exists_mem_of_ne_nil targets someTarget with ⟨target, targetMem⟩
      exact absurd ((ends'.mem_iff ends target).2 targetMem) List.not_mem_nil
  | meet next => exact absurd next ends.not_at
  | @cross _ _ target left _ _ ends' edge finishes =>
      exact ⟨target, (ends'.mem_iff ends target).1 edge, left, Nat.lt_succ_self _, finishes⟩

theorem of_endsIn_nil (finishes : graph.Finishes moves point trace raised)
    (ends : graph.EndsIn point []) :
    trace = [] ∧ raised = (point.block == graph.exceptionalExit) := by
  cases finishes with
  | stop => exact ⟨rfl, rfl⟩
  | meet next => exact absurd next ends.not_at
  | @cross _ _ target _ _ _ ends' edge =>
      exact absurd ((ends'.mem_iff ends target).1 edge) List.not_mem_nil

/-- The statements of a block that are still ahead are met first. -/
theorem of_drop {block : BlockId} {offset : Nat} {nodes : List Node}
    (finishes : graph.Finishes moves ⟨block, offset⟩ trace raised)
    (ahead : (graph.statements block).drop offset = nodes)
    (inside : offset ≤ (graph.statements block).length) :
    ∃ left rest, left ≤ moves ∧ trace = nodes ++ rest ∧
      graph.Finishes left ⟨block, (graph.statements block).length⟩ rest raised := by
  induction nodes generalizing offset moves trace with
  | nil =>
      have atEnd : offset = (graph.statements block).length :=
        Nat.le_antisymm inside (List.drop_eq_nil_iff.1 ahead)
      subst atEnd
      exact ⟨moves, trace, Nat.le_refl _, rfl, finishes⟩
  | cons statement nodes ih =>
      have next : graph.At ⟨block, offset⟩ statement := by
        rw [At, ← List.head?_drop, ahead]
        rfl
      rcases finishes.of_at next with ⟨left, rest, fewer, rfl, goesOn⟩
      have further : (graph.statements block).drop (offset + 1) = nodes := by
        rw [← List.drop_drop, ahead]
        rfl
      have small : offset + 1 ≤ (graph.statements block).length := by
        have := congrArg List.length ahead
        simp at this
        omega
      rcases ih goesOn further small with ⟨left', rest', fewer', rfl, atEnd⟩
      exact ⟨left', rest', by omega, rfl, atEnd⟩

theorem to_drop {block : BlockId} {offset : Nat} {nodes : List Node}
    (ahead : (graph.statements block).drop offset = nodes)
    (inside : offset ≤ (graph.statements block).length)
    (finishes : graph.Finishes moves ⟨block, (graph.statements block).length⟩ trace raised) :
    ∃ moves', graph.Finishes moves' ⟨block, offset⟩ (nodes ++ trace) raised := by
  induction nodes generalizing offset with
  | nil =>
      have atEnd : offset = (graph.statements block).length :=
        Nat.le_antisymm inside (List.drop_eq_nil_iff.1 ahead)
      subst atEnd
      exact ⟨moves, finishes⟩
  | cons statement nodes ih =>
      have next : graph.At ⟨block, offset⟩ statement := by
        rw [At, ← List.head?_drop, ahead]
        rfl
      have further : (graph.statements block).drop (offset + 1) = nodes := by
        rw [← List.drop_drop, ahead]
        rfl
      have small : offset + 1 ≤ (graph.statements block).length := by
        have := congrArg List.length ahead
        simp at this
        omega
      rcases ih further small with ⟨moves', finishes'⟩
      exact ⟨moves' + 1, .meet next finishes'⟩

/-- Control passes a block by meeting all its statements and crossing an edge. -/
theorem of_leads {block : BlockId} {targets : List BlockId}
    (finishes : graph.Finishes moves ⟨block, 0⟩ trace raised) (leads : graph.Leads block targets)
    (someTarget : targets ≠ []) :
    ∃ target ∈ targets, ∃ left rest, left < moves ∧ trace = graph.statements block ++ rest ∧
      graph.Finishes left ⟨target, 0⟩ rest raised := by
  rcases finishes.of_drop List.drop_zero (Nat.zero_le _) with ⟨left, rest, fewer, rfl, atEnd⟩
  rcases atEnd.of_endsIn ⟨rfl, leads⟩ someTarget with ⟨target, targetMem, left', fewer', entered⟩
  exact ⟨target, targetMem, left', rest, by omega, rfl, entered⟩

theorem to_leads {block target : BlockId} {targets : List BlockId}
    (leads : graph.Leads block targets) (targetMem : target ∈ targets)
    (finishes : graph.Finishes moves ⟨target, 0⟩ trace raised) :
    ∃ moves', graph.Finishes moves' ⟨block, 0⟩ (graph.statements block ++ trace) raised :=
  to_drop List.drop_zero (Nat.zero_le _) (.cross ⟨rfl, leads⟩ targetMem finishes)

/-- Control finishes along a path: past the statements ahead in the first block, it meets those of
the other blocks. -/
theorem exists_path (finishes : graph.Finishes moves point trace raised)
    (inside : point.offset ≤ (graph.statements point.block).length) :
    ∃ blocks target, graph.Path point.block (point.block :: blocks) target ∧
      graph.successors target = [] ∧
      trace = (graph.statements point.block).drop point.offset ++ graph.trace blocks ∧
      raised = (target == graph.exceptionalExit) := by
  induction finishes with
  | @stop point ends =>
      refine ⟨[], point.block, .single _, List.eq_nil_iff_forall_not_mem.2 ?_, ?_, rfl⟩
      · intro target edge
        exact List.not_mem_nil ((ends.2 target).1 edge)
      · simp [ends.1]
  | @meet point statement moves trace raised next _ ih =>
      have small : point.offset < (graph.statements point.block).length :=
        (List.getElem?_eq_some_iff.1 next).1
      rcases ih small with ⟨blocks, target, path, noEdge, traceEq, raisedEq⟩
      refine ⟨blocks, target, path, noEdge, ?_, raisedEq⟩
      have metNext : (graph.statements point.block)[point.offset] = statement :=
        (List.getElem?_eq_some_iff.1 next).2
      rw [List.drop_eq_getElem_cons small, metNext, traceEq, List.cons_append]
  | @cross point targets target moves trace raised ends edge _ ih =>
      rcases ih (Nat.zero_le _) with ⟨blocks, last, path, noEdge, traceEq, raisedEq⟩
      refine ⟨target :: blocks, last, .step ((ends.2 target).2 edge) path, noEdge, ?_, raisedEq⟩
      simpa [ends.1] using traceEq

theorem of_path {source target : BlockId} {blocks : List BlockId}
    (path : graph.Path source blocks target) (noEdge : graph.successors target = []) :
    ∃ moves, graph.Finishes moves ⟨source, 0⟩ (graph.trace blocks)
      (target == graph.exceptionalExit) := by
  induction path with
  | single id =>
      have ends : graph.EndsIn ⟨id, (graph.statements id).length⟩ [] :=
        ⟨rfl, fun target => by rw [noEdge]⟩
      have finishes := to_drop List.drop_zero (Nat.zero_le _) (.stop ends)
      simpa using finishes
  | @step source next target blocks edge _ ih =>
      rcases ih noEdge with ⟨moves, finishes⟩
      rw [trace_cons]
      exact to_leads (fun target => Iff.rfl) edge finishes

end Finishes

/-! ### Realizing executions -/

namespace Realizes

open Executions

variable {starts : List Point} {start middle stop : Point} {executions first second : Executions}

theorem skip : graph.Realizes around [stop] stop (meeting [] .finished) where
  complete := by
    intro start moves trace raised startMem finishes
    rcases List.mem_singleton.1 startMem with rfl
    exact ⟨[], .finished, trace, moves, rfl, Nat.le_refl _, ⟨rfl, rfl⟩, finishes⟩
  sound := by
    rintro before after outcome left raised ⟨rfl, rfl⟩ continues
    exact ⟨stop, List.mem_singleton_self _, left, continues⟩

theorem place {statement : Node} (next : graph.At start statement) :
    graph.Realizes around [start] ⟨start.block, start.offset + 1⟩
      (meeting [statement] .finished) where
  complete := by
    intro start' moves trace raised startMem finishes
    rcases List.mem_singleton.1 startMem with rfl
    rcases finishes.of_at next with ⟨left, rest, fewer, rfl, goesOn⟩
    exact ⟨[statement], .finished, rest, left, rfl, Nat.le_of_lt fewer, ⟨rfl, rfl⟩, goesOn⟩
  sound := by
    rintro before after outcome left raised ⟨rfl, rfl⟩ continues
    exact ⟨start, List.mem_singleton_self _, left + 1, .meet next continues⟩

/-- A jump is the last statement of its block; as the exceptional exit has no statements, control
does not end there where the jump has no target. -/
theorem jump {statement : Node} {jump : Jump} (exitEmpty :
      graph.statements graph.exceptionalExit = []) (next : graph.At start statement)
    (ends : graph.EndsIn ⟨start.block, start.offset + 1⟩ (around.target? jump).toList) :
    graph.Realizes around [start] stop (meeting [statement] (.jumped jump)) where
  complete := by
    intro start' moves trace raised startMem finishes
    rcases List.mem_singleton.1 startMem with rfl
    rcases finishes.of_at next with ⟨left, rest, fewer, rfl, goesOn⟩
    cases target : around.target? jump with
    | none =>
        rw [target] at ends
        rcases goesOn.of_endsIn_nil ends with ⟨rfl, raisedEq⟩
        refine ⟨[statement], .jumped jump, [], left, rfl, Nat.le_of_lt fewer, ⟨rfl, rfl⟩, ?_⟩
        rw [Continues, target]
        refine ⟨rfl, raisedEq.trans (beq_false_of_ne ?_)⟩
        intro isExit
        rw [At, isExit, exitEmpty] at next
        simp at next
    | some block =>
        rw [target] at ends
        rcases goesOn.of_endsIn ends (by simp) with ⟨block', blockMem, left', fewer', entered⟩
        rcases List.mem_singleton.1 blockMem with rfl
        refine ⟨[statement], .jumped jump, rest, left', rfl, by omega, ⟨rfl, rfl⟩, ?_⟩
        rw [Continues, target]
        exact entered
  sound := by
    rintro before after outcome left raised ⟨rfl, rfl⟩ continues
    cases target : around.target? jump with
    | none =>
        rw [Continues, target] at continues
        rcases continues with ⟨rfl, rfl⟩
        rw [target] at ends
        have notExit : (start.block == graph.exceptionalExit) = false := by
          refine beq_false_of_ne fun isExit => ?_
          rw [At, isExit, exitEmpty] at next
          simp at next
        rw [← notExit]
        exact ⟨start, List.mem_singleton_self _, 1, .meet next (.stop ends)⟩
    | some block =>
        rw [Continues, target] at continues
        rw [target] at ends
        exact ⟨start, List.mem_singleton_self _, _,
          .meet next (.cross ends (List.mem_singleton_self _) continues)⟩

/-- Executions between two points may be followed by others that start at the second one. -/
theorem sequence (before : graph.Realizes around starts middle first)
    (after : graph.Realizes around [middle] stop second) :
    graph.Realizes around starts stop (Then first second) where
  complete := by
    intro start moves trace raised startMem finishes
    rcases before.complete startMem finishes with
      ⟨met, outcome, rest, left, rfl, fewer, executed, continues⟩
    cases outcome with
    | finished =>
        rcases after.complete (List.mem_singleton_self _) continues with
          ⟨met', outcome', rest', left', rfl, fewer', executed', continues'⟩
        exact ⟨met ++ met', outcome', rest', left', (List.append_assoc ..).symm,
          Nat.le_trans fewer' fewer, .finished executed executed', continues'⟩
    | jumped jump => exact ⟨met, .jumped jump, rest, left, rfl, fewer, .jumped executed, continues⟩
  sound := by
    intro met rest outcome left raised executed continues
    cases executed with
    | @finished met met' _ executed executed' =>
        rcases after.sound executed' continues with ⟨between, isMiddle, moves, finishes⟩
        rcases List.mem_singleton.1 isMiddle with rfl
        rw [List.append_assoc]
        exact before.sound executed finishes
    | jumped executed => exact before.sound executed continues

theorem union {starts' : List Point} (left : graph.Realizes around starts stop first)
    (right : graph.Realizes around starts' stop second) :
    graph.Realizes around (starts ++ starts') stop (either first second) where
  complete := by
    intro start moves trace raised startMem finishes
    rcases List.mem_append.1 startMem with startMem | startMem
    · rcases left.complete startMem finishes with
        ⟨met, outcome, rest, left, rfl, fewer, executed, continues⟩
      exact ⟨met, outcome, rest, left, rfl, fewer, .inl executed, continues⟩
    · rcases right.complete startMem finishes with
        ⟨met, outcome, rest, left, rfl, fewer, executed, continues⟩
      exact ⟨met, outcome, rest, left, rfl, fewer, .inr executed, continues⟩
  sound := by
    intro met rest outcome moves raised executed continues
    rcases executed with executed | executed
    · rcases left.sound executed continues with ⟨start, startMem, finishes⟩
      exact ⟨start, List.mem_append_left _ startMem, finishes⟩
    · rcases right.sound executed continues with ⟨start, startMem, finishes⟩
      exact ⟨start, List.mem_append_right _ startMem, finishes⟩

theorem none : graph.Realizes around [] stop (fun _ _ => False) where
  complete := fun startMem => absurd startMem List.not_mem_nil
  sound := fun executed => executed.elim

/-- Control that ends in a block goes on behind its edges. -/
theorem enter {targets : List BlockId} (ends : graph.EndsIn start targets)
    (someTarget : targets ≠ [])
    (realizes : graph.Realizes around (targets.map (Point.mk · 0)) stop executions) :
    graph.Realizes around [start] stop executions where
  complete := by
    intro start' moves trace raised startMem finishes
    rcases List.mem_singleton.1 startMem with rfl
    rcases finishes.of_endsIn ends someTarget with ⟨target, targetMem, left, fewer, entered⟩
    rcases realizes.complete (List.mem_map_of_mem targetMem) entered with
      ⟨met, outcome, rest, left', rfl, fewer', executed, continues⟩
    exact ⟨met, outcome, rest, left', rfl, by omega, executed, continues⟩
  sound := by
    intro met rest outcome left raised executed continues
    rcases realizes.sound executed continues with ⟨entry, entryMem, moves, finishes⟩
    rcases List.mem_map.1 entryMem with ⟨target, targetMem, rfl⟩
    exact ⟨start, List.mem_singleton_self _, moves + 1, .cross ends targetMem finishes⟩

/-- Control that passes a block meets its statements first. -/
theorem visit {block : BlockId} {nodes : List Node} {targets : List BlockId}
    (statements : graph.statements block = nodes) (leads : graph.Leads block targets)
    (someTarget : targets ≠ [])
    (realizes : graph.Realizes around (targets.map (Point.mk · 0)) stop executions) :
    graph.Realizes around [⟨block, 0⟩] stop (After nodes executions) where
  complete := by
    intro start moves trace raised startMem finishes
    rcases List.mem_singleton.1 startMem with rfl
    rcases finishes.of_leads leads someTarget with
      ⟨target, targetMem, left, rest, fewer, rfl, entered⟩
    rcases realizes.complete (List.mem_map_of_mem targetMem) entered with
      ⟨met, outcome, rest', left', rfl, fewer', executed, continues⟩
    refine ⟨nodes ++ met, outcome, rest', left', ?_, by omega, .intro executed, continues⟩
    rw [statements, List.append_assoc]
  sound := by
    rintro _ rest outcome left raised ⟨executed⟩ continues
    rcases realizes.sound executed continues with ⟨entry, entryMem, moves, finishes⟩
    rcases List.mem_map.1 entryMem with ⟨target, targetMem, rfl⟩
    rw [List.append_assoc, ← statements]
    exact ⟨_, List.mem_singleton_self _, Finishes.to_leads leads targetMem finishes⟩

/-- Executions that end where control goes on to a block may be taken to end in that block. -/
theorem leave {target : BlockId} (realizes : graph.Realizes around starts stop executions)
    (ends : graph.EndsIn stop [target]) :
    graph.Realizes around starts ⟨target, 0⟩ executions where
  complete := by
    intro start moves trace raised startMem finishes
    rcases realizes.complete startMem finishes with
      ⟨met, outcome, rest, left, rfl, fewer, executed, continues⟩
    cases outcome with
    | finished =>
        rcases continues.of_endsIn ends (by simp) with ⟨target', targetMem, left', fewer', entered⟩
        rcases List.mem_singleton.1 targetMem with rfl
        exact ⟨met, .finished, rest, left', rfl, by omega, executed, entered⟩
    | jumped jump => exact ⟨met, .jumped jump, rest, left, rfl, fewer, executed, continues⟩
  sound := by
    intro met rest outcome left raised executed continues
    cases outcome with
    | finished =>
        have crosses : graph.Continues around stop .finished (left + 1) rest raised :=
          .cross ends (List.mem_singleton_self _) continues
        exact realizes.sound executed crosses
    | jumped jump =>
        have sameTarget : graph.Continues around stop (.jumped jump) left rest raised := continues
        exact realizes.sound executed sameTarget

theorem detour {body : Point → Point → Prop} {entry target : BlockId}
    (laid : graph.Detour body entry target)
    (realizes : ∀ {exit}, body ⟨entry, 0⟩ exit →
      graph.Realizes around [⟨entry, 0⟩] exit executions) :
    graph.Realizes around [⟨entry, 0⟩] ⟨target, 0⟩ executions := by
  rcases laid with ⟨exit, laid, ends⟩
  exact (realizes laid).leave ends

/-- Rounds of a loop are taken off one after the other; each of them takes moves. -/
theorem rounds {head : Node} {bound : List Node} {headBlock join bodyEntry elseEntry : BlockId}
    {body orelse : Executions} (statements : graph.statements headBlock = [head])
    (leads : graph.Leads headBlock [bodyEntry, elseEntry])
    (bodyRealizes : graph.Realizes (around.insideLoop ⟨headBlock, join⟩ bound) [⟨bodyEntry, 0⟩]
      ⟨headBlock, 0⟩ body)
    (elseRealizes : graph.Realizes around [⟨elseEntry, 0⟩] ⟨join, 0⟩ orelse) :
    graph.Realizes around [⟨headBlock, 0⟩] ⟨join, 0⟩ (Rounds head body orelse) where
  complete := by
    intro start moves trace raised startMem finishes
    rcases List.mem_singleton.1 startMem with rfl
    clear startMem
    induction moves using Nat.strongRecOn generalizing trace with
    | ind moves ih =>
      rcases finishes.of_leads leads (by simp) with
        ⟨target, targetMem, left, rest, fewer, rfl, entered⟩
      rw [statements]
      rcases List.mem_pair.1 targetMem with rfl | rfl
      · rcases bodyRealizes.complete (List.mem_singleton_self _) entered with
          ⟨met, outcome, rest, left', rfl, fewer', executed, continues⟩
        -- The round has run to its end or continues: the head is ahead, with fewer moves left.
        have nextRound : outcome = .finished ∨ outcome = .jumped .continuing →
            graph.Finishes left' ⟨headBlock, 0⟩ rest raised →
              ∃ before outcome after left,
                [head] ++ (met ++ rest) = before ++ after ∧ left ≤ moves ∧
                Rounds head body orelse before outcome ∧
                graph.Continues around ⟨join, 0⟩ outcome left after raised := by
          intro goesOn again
          rcases ih left' (by omega) again with
            ⟨later, outcome', rest', left'', rfl, fewer'', rounds, continues'⟩
          exact ⟨head :: (met ++ later), outcome', rest', left'', by simp, by omega,
            .again executed goesOn rounds, continues'⟩
        rcases outcome with _ | _ | _ | _
        · exact nextRound (.inl rfl) continues
        · exact ⟨head :: met, .jumped .raising, rest, left', rfl, by omega, .raised executed,
            continues⟩
        · exact ⟨head :: met, .finished, rest, left', rfl, by omega, .broken executed, continues⟩
        · exact nextRound (.inr rfl) continues
      · rcases elseRealizes.complete (List.mem_singleton_self _) entered with
          ⟨met, outcome, rest, left', rfl, fewer', executed, continues⟩
        exact ⟨head :: met, outcome, rest, left', rfl, by omega, .left executed, continues⟩
  sound := by
    intro met rest outcome left raised executed continues
    refine ⟨_, List.mem_singleton_self _, ?_⟩
    have fromBody : ∀ {moves trace}, graph.Finishes moves ⟨bodyEntry, 0⟩ trace raised →
        ∃ moves, graph.Finishes moves ⟨headBlock, 0⟩ ([head] ++ trace) raised := by
      intro moves trace finishes
      rw [← statements]
      exact Finishes.to_leads leads (by simp) finishes
    have ofBody : ∀ outcome {trace after moves}, body trace outcome →
        graph.Continues (around.insideLoop ⟨headBlock, join⟩ bound) ⟨headBlock, 0⟩ outcome moves
          after raised →
        ∃ moves, graph.Finishes moves ⟨headBlock, 0⟩ (head :: (trace ++ after)) raised := by
      intro outcome trace after moves round goesOn
      rcases bodyRealizes.sound round goesOn with ⟨entry, entryMem, moves, finishes⟩
      rcases List.mem_singleton.1 entryMem with rfl
      exact fromBody finishes
    induction executed with
    | left otherwise =>
        rcases elseRealizes.sound otherwise continues with ⟨entry, entryMem, moves, finishes⟩
        rcases List.mem_singleton.1 entryMem with rfl
        have passed := Finishes.to_leads leads (by simp) finishes
        rwa [statements] at passed
    | broken breaks => exact ofBody (.jumped .breaking) breaks continues
    | raised raises => exact ofBody (.jumped .raising) raises continues
    | @again trace later outcome outcome' round goesOn _ ih =>
        rcases ih continues with ⟨moves, again⟩
        rw [List.cons_append, List.append_assoc]
        rcases goesOn with rfl | rfl
        · exact ofBody .finished round again
        · exact ofBody (.jumped .continuing) round again

theorem guarded {dispatch bodyEntry elseEntry last : BlockId} {bodyExit : Point}
    {body handlers orelse : Executions}
    (bodyRealizes : graph.Realizes (around.guardedBy dispatch) [⟨bodyEntry, 0⟩] bodyExit body)
    (ends : graph.EndsIn bodyExit [elseEntry, dispatch])
    (elseRealizes : graph.Realizes around [⟨elseEntry, 0⟩] ⟨last, 0⟩ orelse)
    (handlersRealize : graph.Realizes around [⟨dispatch, 0⟩] ⟨last, 0⟩ handlers) :
    graph.Realizes around [⟨bodyEntry, 0⟩] ⟨last, 0⟩ (Guarded body (some handlers) orelse) where
  complete := by
    intro start moves trace raised startMem finishes
    rcases bodyRealizes.complete startMem finishes with
      ⟨met, outcome, rest, left, rfl, fewer, executed, continues⟩
    have inHandler : ∀ {left'}, left' ≤ left →
        outcome = .finished ∨ outcome = .jumped .raising →
        graph.Finishes left' ⟨dispatch, 0⟩ rest raised →
          ∃ before outcome after left,
            met ++ rest = before ++ after ∧ left ≤ moves ∧
            Guarded body (some handlers) orelse before outcome ∧
            graph.Continues around ⟨last, 0⟩ outcome left after raised := by
      intro left' fewer' caught entered
      rcases handlersRealize.complete (List.mem_singleton_self _) entered with
        ⟨met', outcome', rest', left'', rfl, fewer'', executed', continues'⟩
      exact ⟨met ++ met', outcome', rest', left'', (List.append_assoc ..).symm, by omega,
        .handled executed caught rfl executed', continues'⟩
    rcases outcome with _ | _ | _ | _
    · rcases Finishes.of_endsIn continues ends (by simp) with
        ⟨target, targetMem, left', fewer', entered⟩
      rcases List.mem_pair.1 targetMem with rfl | rfl
      · rcases elseRealizes.complete (List.mem_singleton_self _) entered with
          ⟨met', outcome', rest', left'', rfl, fewer'', executed', continues'⟩
        exact ⟨met ++ met', outcome', rest', left'', (List.append_assoc ..).symm, by omega,
          .passed executed executed', continues'⟩
      · exact inHandler (by omega) (.inl rfl) entered
    · exact inHandler (Nat.le_refl _) (.inr rfl) continues
    · exact ⟨met, .jumped .breaking, rest, left, rfl, fewer, .left executed (by simp), continues⟩
    · exact ⟨met, .jumped .continuing, rest, left, rfl, fewer, .left executed (by simp),
        continues⟩
  sound := by
    intro met rest outcome left raised executed continues
    cases executed with
    | @passed before after _ executed executed' =>
        rcases elseRealizes.sound executed' continues with ⟨entry, entryMem, moves, finishes⟩
        rcases List.mem_singleton.1 entryMem with rfl
        have crosses : graph.Continues (around.guardedBy dispatch) bodyExit .finished (moves + 1)
            (after ++ rest) raised := .cross ends (by simp) finishes
        rw [List.append_assoc]
        exact bodyRealizes.sound executed crosses
    | @handled before after outcome _ _ executed caught guarded executed' =>
        rcases Option.some.inj guarded with rfl
        rcases handlersRealize.sound executed' continues with ⟨entry, entryMem, moves, finishes⟩
        rcases List.mem_singleton.1 entryMem with rfl
        rw [List.append_assoc]
        rcases caught with rfl | rfl
        · have crosses : graph.Continues (around.guardedBy dispatch) bodyExit .finished (moves + 1)
              (after ++ rest) raised := .cross ends (by simp) finishes
          exact bodyRealizes.sound executed crosses
        · have caught : graph.Continues (around.guardedBy dispatch) bodyExit (.jumped .raising) moves
              (after ++ rest) raised := finishes
          exact bodyRealizes.sound executed caught
    | unhandled _ unguarded => cases unguarded
    | @left _ jump executed notRaising =>
        have sameTarget : graph.Continues (around.guardedBy dispatch) bodyExit (.jumped jump) left
            rest raised := by
          cases jump with
          | raising => exact absurd rfl notRaising
          | breaking => exact continues
          | continuing => exact continues
        exact bodyRealizes.sound executed sameTarget

end Realizes

end Graph

namespace Command

open Executions FlowAnalysis.Graph

variable {graph : Graph} {around : Surroundings}

theorem realizes_optional {commands : List Command} {entry target : BlockId}
    (laid : graph.OptionalDetour commands (AllLaidOut graph around commands) entry target)
    (realizes : ∀ {exit}, AllLaidOut graph around commands ⟨entry, 0⟩ exit →
      graph.Realizes around [⟨entry, 0⟩] exit (AllExecute commands)) :
    graph.Realizes around [⟨entry, 0⟩] ⟨target, 0⟩ (AllExecute commands) := by
  rw [Graph.OptionalDetour] at laid
  split at laid
  · next empty =>
      rcases List.isEmpty_iff.1 empty with rfl
      subst laid
      exact .skip
  · exact .detour laid realizes

theorem HandlersLaidOut.entries_ne_nil {handlers : List (List Command)} {entries : List BlockId}
    {target : BlockId} (laid : HandlersLaidOut graph around handlers entries target)
    (someHandler : handlers ≠ []) : entries ≠ [] := by
  cases handlers with
  | nil => exact absurd rfl someHandler
  | cons handler rest =>
      rcases laid with ⟨entry, restEntries, rfl, -⟩
      exact List.cons_ne_nil _ _

mutual

/-- A graph realizes a command where the command lies. -/
theorem LaidOut.realizes (exitEmpty : graph.statements graph.exceptionalExit = []) :
    (command : Command) → {around : Surroundings} → {start stop : Point} →
      LaidOut graph around command start stop →
      graph.Realizes around [start] stop (Executes command)
  | .place statement, _, start, _, ⟨next, stopEq⟩ => by
      subst stopEq
      exact .place next
  | .jump _ statement, _, _, _, ⟨next, ends⟩ => .jump exitEmpty next ends
  | .branch cond body rest, around, _, ⟨_, _⟩,
      ⟨condBlock, bodyEntry, restEntry, ends, statements, leads, bodyLaid, restLaid, rfl⟩ => by
      have bodyRealizes := Realizes.detour bodyLaid (AllLaidOut.realizes exitEmpty body)
      have restRealizes := AlternativesLaidOut.realizes exitEmpty rest restLaid
      exact .enter ends (by simp)
        (.visit statements leads (by simp) (bodyRealizes.union restRealizes))
  | .loop _ head bound body orelse, around, _, ⟨_, _⟩,
      ⟨headBlock, bodyEntry, elseEntry, ends, statements, leads, bodyLaid, elseLaid, rfl⟩ => by
      have bodyRealizes := Realizes.detour bodyLaid (AllLaidOut.realizes exitEmpty body)
      have elseRealizes := realizes_optional elseLaid (AllLaidOut.realizes exitEmpty orelse)
      exact .enter ends (by simp) (.rounds statements leads bodyRealizes elseRealizes)
  | .bracket bindings body, _, _, _,
      ⟨bindingBlock, bodyEntry, ends, statements, leads, bodyLaid⟩ => by
      have bodyRealizes := AllLaidOut.realizes exitEmpty body bodyLaid
      exact .enter ends (by simp) (.visit statements leads (by simp) bodyRealizes)
  | .guarded body handlers orelse finalbody, around, _, ⟨_, _⟩,
      ⟨dispatch?, handlerEntries, bodyEntry, bodyExit, elseEntry, lastEntry, ends, bodyLaid,
        bodyEnds, noHandlers, dispatches, handlersLaid, elseLaid, finalLaid, rfl⟩ => by
      have bodyRealizes := AllLaidOut.realizes exitEmpty body bodyLaid
      have elseRealizes := realizes_optional elseLaid (AllLaidOut.realizes exitEmpty orelse)
      have finalRealizes := realizes_optional finalLaid (AllLaidOut.realizes exitEmpty finalbody)
      have handlersRealize := HandlersLaidOut.realizes exitEmpty handlers handlersLaid
      refine .enter ends (by simp) (Realizes.sequence ?_ finalRealizes)
      cases dispatch? with
      | none =>
          rcases noHandlers.1 rfl with rfl
          rw [List.isEmpty_nil, if_pos rfl, guarded_none]
          exact (bodyRealizes.leave bodyEnds).sequence elseRealizes
      | some dispatch =>
          have someHandler : handlers ≠ [] := fun empty => by simpa using noHandlers.2 empty
          rcases dispatches dispatch rfl with ⟨statements, leads⟩
          rw [List.isEmpty_eq_false_iff.2 someHandler, if_neg Bool.false_ne_true]
          refine .guarded bodyRealizes bodyEnds elseRealizes ?_
          have someEntry := HandlersLaidOut.entries_ne_nil handlersLaid someHandler
          have visits := Realizes.visit statements leads someEntry handlersRealize
          rwa [after_nil] at visits

theorem AllLaidOut.realizes (exitEmpty : graph.statements graph.exceptionalExit = []) :
    (commands : List Command) → {around : Surroundings} → {start stop : Point} →
      AllLaidOut graph around commands start stop →
      graph.Realizes around [start] stop (AllExecute commands)
  | [], _, _, _, stopEq => by
      rw [AllLaidOut] at stopEq
      subst stopEq
      exact .skip
  | command :: rest, _, _, _, ⟨_, laid, restLaid⟩ =>
      (LaidOut.realizes exitEmpty command laid).sequence
        (AllLaidOut.realizes exitEmpty rest restLaid)

theorem AlternativesLaidOut.realizes (exitEmpty : graph.statements graph.exceptionalExit = []) :
    (rest : Alternatives) → {around : Surroundings} → {entry join : BlockId} →
      AlternativesLaidOut graph around rest entry join →
      graph.Realizes around [⟨entry, 0⟩] ⟨join, 0⟩ (AlternativesExecute rest)
  | .none, _, _, _, entryEq => by
      rw [AlternativesLaidOut] at entryEq
      subst entryEq
      exact .skip
  | .further cond body rest, _, _, _,
      ⟨bodyEntry, restEntry, statements, leads, bodyLaid, restLaid⟩ => by
      have bodyRealizes := Realizes.detour bodyLaid (AllLaidOut.realizes exitEmpty body)
      have restRealizes := AlternativesLaidOut.realizes exitEmpty rest restLaid
      exact .visit statements leads (by simp) (bodyRealizes.union restRealizes)
  | .otherwise header body, _, _, _, ⟨bodyEntry, statements, leads, bodyLaid⟩ => by
      have bodyRealizes := Realizes.detour bodyLaid (AllLaidOut.realizes exitEmpty body)
      exact .visit statements leads (by simp) bodyRealizes

theorem HandlersLaidOut.realizes (exitEmpty : graph.statements graph.exceptionalExit = []) :
    (handlers : List (List Command)) → {around : Surroundings} → {entries : List BlockId} →
      {target : BlockId} → HandlersLaidOut graph around handlers entries target →
      graph.Realizes around (entries.map (Point.mk · 0)) ⟨target, 0⟩ (SomeExecutes handlers)
  | [], _, _, _, entriesEq => by
      rw [HandlersLaidOut] at entriesEq
      subst entriesEq
      exact .none
  | handler :: rest, _, _, _, ⟨entry, restEntries, entriesEq, handlerLaid, restLaid⟩ => by
      subst entriesEq
      have handlerRealizes := Realizes.detour handlerLaid (AllLaidOut.realizes exitEmpty handler)
      have restRealizes := HandlersLaidOut.realizes exitEmpty rest restLaid
      exact handlerRealizes.union restRealizes

end

/-- The paths of a program to blocks without successors meet exactly the statements that its
executions meet, and those executions that end with an exception lead to the exceptional exit. -/
theorem ProgramLaidOut.path_iff_execution {program : List Command}
    (laid : ProgramLaidOut graph program) {trace : List Node} {raised : Bool} :
    (∃ blocks target, graph.Path graph.entry blocks target ∧ graph.successors target = [] ∧
        graph.trace blocks = trace ∧ raised = (target == graph.exceptionalExit)) ↔
      ∃ outcome, AllExecute program trace outcome ∧
        (raised = true ↔ outcome = .jumped .raising) := by
  rcases laid.laid with ⟨stop, laidOut, stopEnds, stopNotExit⟩
  have realizes := AllLaidOut.realizes laid.exit_statements program laidOut
  have exitEnds : graph.EndsIn ⟨graph.exceptionalExit, 0⟩ [] :=
    ⟨by rw [laid.exit_statements]; rfl, laid.exit_leads⟩
  constructor
  · rintro ⟨blocks, target, path, noEdge, rfl, rfl⟩
    rcases Finishes.of_path path noEdge with ⟨moves, finishes⟩
    rcases realizes.complete (List.mem_singleton_self _) finishes with
      ⟨met, outcome, rest, left, traceEq, -, executed, continues⟩
    rcases outcome with _ | _ | _ | _
    · rcases continues.of_endsIn_nil stopEnds with ⟨rfl, raisedEq⟩
      refine ⟨.finished, by simpa [traceEq] using executed, ?_⟩
      simp [raisedEq, stopNotExit]
    · rcases Finishes.of_endsIn_nil continues exitEnds with ⟨rfl, raisedEq⟩
      refine ⟨.jumped .raising, by simpa [traceEq] using executed, ?_⟩
      simp [raisedEq, Surroundings.outside]
    · rcases continues with ⟨rfl, raisedEq⟩
      refine ⟨.jumped .breaking, by simpa [traceEq] using executed, ?_⟩
      simp [raisedEq]
    · rcases continues with ⟨rfl, raisedEq⟩
      refine ⟨.jumped .continuing, by simpa [traceEq] using executed, ?_⟩
      simp [raisedEq]
  · rintro ⟨outcome, executed, raisedIff⟩
    have continues : ∃ left, graph.Continues (.outside graph.exceptionalExit) stop outcome left []
        raised := by
      rcases outcome with _ | _ | _ | _
      · have notRaised : raised = (stop.block == graph.exceptionalExit) := by
          rw [beq_false_of_ne stopNotExit]
          simpa using raisedIff
        exact ⟨0, notRaised ▸ .stop stopEnds⟩
      · have isRaised : raised = (graph.exceptionalExit == graph.exceptionalExit) := by
          simpa using raisedIff
        exact ⟨0, isRaised ▸ .stop exitEnds⟩
      · exact ⟨0, rfl, by simpa using raisedIff⟩
      · exact ⟨0, rfl, by simpa using raisedIff⟩
    rcases continues with ⟨left, continues⟩
    rcases realizes.sound executed continues with ⟨start, startMem, moves, finishes⟩
    rcases List.mem_singleton.1 startMem with rfl
    rcases finishes.exists_path (Nat.zero_le _) with
      ⟨blocks, target, path, noEdge, traceEq, raisedEq⟩
    refine ⟨_, target, path, noEdge, ?_, raisedEq⟩
    simpa using traceEq.symm

end Command

end FlowAnalysis
