import FlowAnalysis.Proofs.ControlFlow.TailPosition

/-!
# Where the run of a list of statements ends

A `raise`, `break` or `continue` ends the run of its list: it is the last statement of its block,
and what stands behind it in its list is in no reachable block. A `return` is laid out like a
statement after which control runs on, so it ends the run of its list only where nothing comes
behind it but `finally` clauses.
-/

namespace FlowAnalysis

namespace Graph

variable {graph : Graph} {program : List Command}

/-- Statements that are listed, each with some other nodes, stand at points of their own. -/
structure Locates (graph : Graph) (listed : List (Node × List Node))
    (places : List (Point × List Point)) : Prop where
  map_node? : places.map (Prod.map graph.node? (List.map graph.node?)) =
    listed.map (Prod.map some (List.map some))
  nodup : (places.map Prod.fst).Nodup
  apart : ∀ place ∈ places, (place.1 :: place.2).Nodup

theorem Locates.exists_of_mem {listed : List (Node × List Node)}
    {places : List (Point × List Point)} (locates : graph.Locates listed places) {statement : Node}
    {others : List Node} (isListed : (statement, others) ∈ listed) :
    ∃ place ∈ places, graph.node? place.1 = some statement ∧
      place.2.map graph.node? = others.map some := by
  have isPlaced := List.mem_map_of_mem (f := Prod.map some (List.map some)) isListed
  rw [← locates.map_node?] at isPlaced
  rcases List.mem_map.1 isPlaced with ⟨place, isPlace, same⟩
  rcases Prod.ext_iff.1 same with ⟨sameStatement, sameOthers⟩
  exact ⟨place, isPlace, sameStatement, sameOthers⟩

/-- Where nodes have positions of their own, what is listed of them is located there. -/
theorem locates_map (f : Node → Node) {nodes : List Node} {listed : List (Node × List Node)}
    {position : Node → Point} (distinct : nodes.Nodup)
    (next : ∀ node ∈ nodes, graph.At (position node) node)
    (once : (listed.map Prod.fst).Sublist nodes)
    (inside : ∀ entry ∈ listed, (entry.1 :: entry.2).Sublist nodes) :
    (graph.map f).Locates (listed.map (Prod.map f (List.map f)))
      (listed.map (Prod.map position (List.map position))) := by
  have isNode : ∀ node ∈ nodes, (graph.map f).node? (position node) = some (f node) := by
    intro node isNode
    exact (node?_map f graph (position node)).trans (congrArg (Option.map f) (next node isNode))
  have injective : ∀ node ∈ nodes, ∀ node' ∈ nodes, position node = position node' →
      node = node' := by
    intro node member node' member' same
    have next' := next node' member'
    rw [← same] at next'
    exact Option.some.inj ((next node member).symm.trans next')
  refine ⟨?_, ?_, ?_⟩
  · rw [List.map_map, List.map_map]
    apply List.map_congr_left
    intro entry isEntry
    have isInside := (inside entry isEntry).subset
    refine Prod.ext (isNode _ (isInside List.mem_cons_self)) ?_
    simp only [Function.comp_apply, Prod.map_snd, List.map_map]
    apply List.map_congr_left
    exact fun node isOther => isNode node (isInside (List.mem_cons_of_mem _ isOther))
  · have sameFirst : (listed.map (Prod.map position (List.map position))).map Prod.fst =
        (listed.map Prod.fst).map position := by
      simp [Function.comp_def]
    rw [sameFirst]
    apply (distinct.sublist once).map_on
    exact fun node member node' member' =>
      injective node (once.subset member) node' (once.subset member')
  · intro place isPlace
    rcases List.mem_map.1 isPlace with ⟨entry, isEntry, rfl⟩
    have isInside := inside entry isEntry
    change ((entry.1 :: entry.2).map position).Nodup
    apply (distinct.sublist isInside).map_on
    exact fun node member node' member' =>
      injective node (isInside.subset member) node' (isInside.subset member')

theorem isLast_map (f : Node → Node) {point : Point} :
    (graph.map f).IsLast point ↔ graph.IsLast point := by
  rw [IsLast, IsLast, statements_map, List.length_map]

theorem reachable_map (f : Node → Node) : (graph.map f).reachable = graph.reachable := by
  rw [reachable, size, map, List.length_map]
  rfl

/-! ### Behind jumps and endings -/

/-- A jump of a program is the last statement of its block. -/
theorem isLast_of_mem_cuts {cut : Node × List Node} (isCut : cut ∈ Command.cutsOfAll program)
    {point : Point}
    (only : ∀ other, (ofCommands program).At other cut.1 → point = other) :
    (ofCommands program).IsLast point := by
  rcases (ofCommands_laidOut program).laid with ⟨stop, laidOut, -⟩
  rcases Command.AllLaidOut.endsBlock_of_mem_cuts program laidOut isCut with ⟨other, next, isLast⟩
  exact only other next ▸ isLast

/-- Where a whole program ends, nothing more is met. -/
theorem eq_nil_of_continues (laid : Command.ProgramLaidOut graph program) {stop : Point}
    (stopEnds : graph.EndsIn stop []) {outcome : Outcome} {left : Nat} {after : List Node}
    {raised : Bool}
    (continues : graph.Continues (.outside graph.exceptionalExit) stop outcome left after raised) :
    after = [] := by
  rcases outcome with _ | _ | _ | _
  · exact (Finishes.of_endsIn_nil continues stopEnds).1
  · have exitEnds : graph.EndsIn ⟨graph.exceptionalExit, 0⟩ [] :=
      ⟨by rw [laid.exit_statements]; rfl, laid.exit_leads⟩
    exact (Finishes.of_endsIn_nil continues exitEnds).1
  · exact continues.1
  · exact continues.1

/-- An ending of a program is the last statement of its block, and paths that lead on from this
block meet nothing but the last clauses that are listed with it. -/
theorem exists_point_of_mem_endings {ending : Node × List Node}
    (isEnding : ending ∈ Command.endingsOfAll program) :
    ∃ point, (ofCommands program).At point ending.1 ∧ (ofCommands program).IsLast point ∧
      ∀ {blocks : List BlockId} {target : BlockId},
        (ofCommands program).Path point.block (point.block :: blocks) target →
          (ofCommands program).trace blocks ⊆ ending.2 := by
  have laid := ofCommands_laidOut program
  rcases laid.laid with ⟨stop, laidOut, stopEnds, -⟩
  rcases Command.AllLaidOut.trails laid.exit_statements program laidOut isEnding with
    ⟨point, next, isLast, goesOn⟩
  have isLast : (ofCommands program).IsLast point := by
    rcases isLast with rfl | isLast
    · exact stopEnds.1
    · exact isLast
  refine ⟨point, next, isLast, ?_⟩
  intro blocks target path
  have canEnd : (ofCommands program).CanEnd target := by
    by_cases small : target < (ofCommands program).size
    · exact canEnd_ofCommands program small
    · refine ⟨[target], target, .single _, List.eq_nil_iff_forall_not_mem.2 ?_⟩
      intro successor edge
      exact small (laid.wellFormed.source_lt _ (mem_successors.1 edge))
  rcases path.exists_complete canEnd with ⟨rest, exit, complete, isExit⟩
  rcases Finishes.of_path complete isExit with ⟨moves, finishes⟩
  rcases finishes.of_drop List.drop_zero (Nat.zero_le _) with ⟨left, met, -, traceEq, atEnd⟩
  rw [List.cons_append, trace_cons, List.append_cancel_left_eq] at traceEq
  rw [← isLast, ← traceEq] at atEnd
  rcases goesOn atEnd with ⟨before, outcome, after, left', splitEq, isLastly, continues⟩
  rcases eq_nil_of_continues laid stopEnds continues with rfl
  rw [List.append_nil, trace_append] at splitEq
  intro node isMet
  apply isLastly
  rw [← splitEq]
  exact List.mem_append_left _ isMet

/-! ### Jumps and returns -/

/-- In the graph of a module or function, each `raise`, `break` and `continue` of a list that is
laid out is the last statement of its block, and what stands behind it in its list is in no
reachable block. Each `return` behind which nothing comes but `finally` clauses is the last
statement of its block, and paths that lead on from there meet nothing but these clauses. -/
theorem exists_places_of_abrupt {root : Node} {graph : Graph} (built : ofRoot root = .ok graph) :
    ∃ cuts endings : List (Point × List Point),
      graph.Locates (Command.cutsOfAll (Command.ofNodes root.body)) cuts ∧
      graph.Locates (Command.endingsOfAll (Command.ofNodes root.body)) endings ∧
      (∀ {earlier rest : List Node} {statement : Node} {jump : Jump},
        Node.LaysList root.body (earlier ++ statement :: rest) → statement.jump? = some jump →
          ∃ cut ∈ cuts, graph.node? cut.1 = some statement ∧
            cut.2.map graph.node? = (Node.nestingAll rest).labels.map some) ∧
      (∀ cut ∈ cuts, graph.IsLast cut.1 ∧ ∀ point ∈ cut.2, point.block ∉ graph.reachable) ∧
      (∀ {statement : Node} {values : List Node}, Node.ComesLast root.body statement →
        statement.shape = .returnValues values →
          ∃ ending ∈ endings, graph.node? ending.1 = some statement) ∧
      ∀ ending ∈ endings, graph.IsLast ending.1 ∧
        ∀ {blocks : List BlockId} {target : BlockId},
          graph.Path ending.1.block (ending.1.block :: blocks) target →
            ∀ point node, point.block ∈ blocks → graph.At point node → point ∈ ending.2 := by
  rcases ofRoot_eq_ofCommands built with rfl
  rcases Command.exists_distinct (Command.ofNodes root.body) with ⟨original, f, distinct, mapped⟩
  rcases exists_position distinct with ⟨position, next, position_eq⟩
  have locatesCuts := locates_map f distinct next (Command.map_cutsOfAll_sublist original)
    fun cut isCut => Command.sublist_of_mem_cutsOfAll original isCut
  have locatesEndings := locates_map f distinct next (Command.map_endingsOfAll_sublist original)
    fun ending isEnding => Command.sublist_of_mem_endingsOfAll original isEnding
  rw [← Command.cutsOfAll_mapAll, ← ofCommands_mapAll, mapped] at locatesCuts
  rw [← Command.endingsOfAll_mapAll, ← ofCommands_mapAll, mapped] at locatesEndings
  refine ⟨_, _, locatesCuts, locatesEndings, ?_, ?_, ?_, ?_⟩
  · intro earlier rest statement jump laysList isJump
    exact locatesCuts.exists_of_mem (Command.mem_cutsOfAll laysList isJump)
  · intro place isPlace
    rcases List.mem_map.1 isPlace with ⟨cut, isCut, rfl⟩
    have isInside := (Command.sublist_of_mem_cutsOfAll original isCut).subset
    rw [← mapped, ofCommands_mapAll, isLast_map, reachable_map]
    refine ⟨isLast_of_mem_cuts isCut fun other next => (position_eq other _ next).2, ?_⟩
    intro point isBehind
    rcases List.mem_map.1 isBehind with ⟨node, isOther, rfl⟩
    exact not_mem_reachable_of_mem_cuts distinct isCut isOther
      (next node (isInside (List.mem_cons_of_mem _ isOther)))
  · intro statement values comesLast isReturn
    have isPlain : Command.ofNode statement = .place statement := by
      rcases statement with ⟨shape, location⟩
      rcases isReturn with rfl
      rfl
    rcases Command.exists_mem_endingsOfAll comesLast isPlain with ⟨lastly, isEnding⟩
    rcases locatesEndings.exists_of_mem isEnding with ⟨ending, isPlace, isThere, -⟩
    exact ⟨ending, isPlace, isThere⟩
  · intro place isPlace
    rcases List.mem_map.1 isPlace with ⟨ending, isEnding, rfl⟩
    rcases exists_point_of_mem_endings isEnding with ⟨point, nextEnding, isLast, onlyLastly⟩
    have samePoint : position ending.1 = point := (position_eq point _ nextEnding).2
    change (ofCommands (Command.ofNodes root.body)).IsLast (position ending.1) ∧ ∀ {blocks target},
      (ofCommands (Command.ofNodes root.body)).Path (position ending.1).block
        ((position ending.1).block :: blocks) target →
          ∀ point node, point.block ∈ blocks → _ → point ∈ ending.2.map position
    rw [samePoint, ← mapped, ofCommands_mapAll, isLast_map]
    refine ⟨isLast, ?_⟩
    intro blocks target path other node onPath isThere
    rcases (exists_at_map f other).1 ⟨node, isThere⟩ with ⟨number, nextNumber⟩
    have isLastly := onlyLastly ((path_map f).1 path)
      (List.mem_flatMap.2 ⟨_, onPath, nextNumber.mem⟩)
    exact List.mem_map.2 ⟨number, isLastly, (position_eq other number nextNumber).2⟩

/-- A conditional whose body raises in front of a statement. -/
def raisingConditional : Node :=
  ⟨.conditional ⟨.name "a", default⟩ [⟨.raiseError none, default⟩, ⟨.name "b", default⟩] [] none,
    default⟩

/-- A `try` that ends with a `return` and has a last clause. -/
def returningTry : Node :=
  ⟨.tryBlock [raisingConditional, ⟨.returnValues [], default⟩] [] [] [⟨.pass, default⟩], default⟩

def returningFunction : Node :=
  ⟨.definition "f" [] [returningTry] [], default⟩

/-- Nothing behind the `raise` is reached, and the `return` is followed by the last clause alone. -/
theorem exists_places_returningFunction : ∃ (graph : Graph) (cut ending : Point × List Point),
    ofRoot returningFunction = .ok graph ∧
    graph.node? cut.1 = some ⟨.raiseError none, default⟩ ∧
    cut.2.map graph.node? = [some ⟨.name "b", default⟩] ∧ graph.IsLast cut.1 ∧
    (∀ point ∈ cut.2, point.block ∉ graph.reachable) ∧
    graph.node? ending.1 = some ⟨.returnValues [], default⟩ ∧ graph.IsLast ending.1 ∧
    ∀ {blocks : List BlockId} {target : BlockId},
      graph.Path ending.1.block (ending.1.block :: blocks) target →
        ∀ point node, point.block ∈ blocks → graph.At point node → point ∈ ending.2 := by
  have laysList : Node.LaysList returningFunction.body
      ([] ++ ⟨.raiseError none, default⟩ :: [⟨.name "b", default⟩]) := by
    refine .inr ⟨raisingConditional, ?_, List.mem_cons_self⟩
    exact .within (.here (List.mem_singleton_self returningTry)) List.mem_cons_self
      List.mem_cons_self
  have comesLast : Node.ComesLast returningFunction.body ⟨.returnValues [], default⟩ := by
    have outer : Node.ComesLast returningFunction.body returningTry :=
      .here (rfl : _ = [] ++ [returningTry])
    have runs : [raisingConditional] ++ [⟨.returnValues [], default⟩] ∈ returningTry.lastLists :=
      List.mem_cons_self
    exact .within outer runs
  rcases exists_places_of_abrupt (rfl : ofRoot returningFunction = .ok _) with
    ⟨cuts, endings, -, -, ofJumps, cutsHold, ofReturns, endingsHold⟩
  rcases ofJumps laysList rfl with ⟨cut, isCut, isRaise, isBehind⟩
  rcases ofReturns comesLast rfl with ⟨ending, isEnding, isReturn⟩
  exact ⟨_, cut, ending, rfl, isRaise, isBehind, (cutsHold cut isCut).1, (cutsHold cut isCut).2,
    isReturn, (endingsHold ending isEnding).1, (endingsHold ending isEnding).2⟩

/-- A function that returns early, with a statement behind the `return` and one behind the
conditional around it. -/
def earlyReturn : Node :=
  ⟨.definition "f" [] [⟨.conditional ⟨.name "a", default⟩
    [⟨.returnValues [], default⟩, ⟨.name "b", default⟩] [] none, default⟩,
      ⟨.pass, default⟩] [], default⟩

/-- The `return` is followed by the next statement in its block, which is reached, and a path leads
on to what stands behind the conditional. -/
theorem runs_on_earlyReturn : ∃ graph, ofRoot earlyReturn = .ok graph ∧
    graph.statements 3 = [⟨.returnValues [], default⟩, ⟨.name "b", default⟩] ∧
    ¬ graph.IsLast ⟨3, 0⟩ ∧ 3 ∈ graph.reachable ∧ graph.Path 3 [3, 4] 4 ∧
    graph.statements 4 = [⟨.pass, default⟩] := by
  refine ⟨_, rfl, rfl, ?_, by decide, .step (by decide) (.single _), rfl⟩
  exact (by decide : ¬ 0 + 1 = 2)

end Graph

end FlowAnalysis
