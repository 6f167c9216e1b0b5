import FlowAnalysis.Proofs.ControlFlow.Ending
import FlowAnalysis.Proofs.ControlFlow.Placement

/-!
# The order of statements

A search comes to a block from one that it has found before, so the reachable blocks are listed in
an order in which paths lead to each of them through blocks listed earlier. All paths to what a
program places after a plain statement meet that statement. So what is listed before a plain
statement of a program is placed before it.
-/

namespace FlowAnalysis

namespace Search

variable {Vertex : Type} [DecidableEq Vertex] {step : Vertex → List Vertex} {vertex : Vertex}
  {front back : List Vertex}

theorem exists_source_of_layersFrom {bound : Nat} {found frontier : List Vertex}
    (split : (layersFrom step bound found frontier).flatten = front ++ vertex :: back) :
    vertex ∈ frontier ∨ ∃ source ∈ front, vertex ∈ step source := by
  induction bound generalizing found frontier front with
  | zero => simp [layersFrom] at split
  | succ bound ih =>
      rw [layersFrom] at split
      split at split
      · simp at split
      · rw [List.flatten_cons, List.append_eq_append_iff] at split
        have later : ∀ front', front = frontier ++ front' →
            (layersFrom step bound (found ++ fresh step found frontier)
              (fresh step found frontier)).flatten = front' ++ vertex :: back →
            vertex ∈ frontier ∨ ∃ source ∈ front, vertex ∈ step source := by
          intro front' frontEq restEq
          right
          rcases ih restEq with isFresh | ⟨source, isEarlier, isStep⟩
          · rcases (mem_fresh.1 isFresh).1 with ⟨source, onFrontier, isStep⟩
            exact ⟨source, by simp [frontEq, onFrontier], isStep⟩
          · exact ⟨source, by simp [frontEq, isEarlier], isStep⟩
        rcases split with ⟨front', frontEq, restEq⟩ | ⟨back', frontierEq, backEq⟩
        · exact later front' frontEq restEq
        · cases back' with
          | nil => exact later [] (by simpa using frontierEq.symm) (by simpa using backEq.symm)
          | cons head back' =>
              rcases List.cons.inj backEq with ⟨rfl, -⟩
              left
              simp [frontierEq]

/-- A search starts from a vertex or comes to it from one that it has found before. -/
theorem exists_source_of_reached {bound : Nat} {starts : List Vertex}
    (split : reached step bound starts = front ++ vertex :: back) :
    vertex ∈ starts ∨ ∃ source ∈ front, vertex ∈ step source := by
  rcases exists_source_of_layersFrom split with isStart | found
  · exact .inl (List.mem_eraseDups.1 isStart)
  · exact .inr found

end Search

namespace Command

open Executions

theorem ofNodes_append (nodes nodes' : List Node) :
    ofNodes (nodes ++ nodes') = ofNodes nodes ++ ofNodes nodes' := by
  induction nodes with
  | nil => rfl
  | cons first rest ih => rw [List.cons_append, ofNodes, ofNodes, ih, List.cons_append]

/-- Commands run after others if these run to their end. -/
theorem allExecute_append {first second : List Command} {trace : List Node} {outcome : Outcome}
    (executed : AllExecute (first ++ second) trace outcome) :
    (∃ before after, trace = before ++ after ∧ AllExecute first before .finished ∧
        AllExecute second after outcome) ∨
      ∃ jump, AllExecute first trace (.jumped jump) := by
  induction first generalizing trace with
  | nil => exact .inl ⟨[], trace, rfl, ⟨rfl, rfl⟩, executed⟩
  | cons command rest ih =>
      rcases executed with @⟨before, after, _, ends, goesOn⟩ | ⟨leaves⟩
      · rcases ih goesOn with ⟨middle, last, rfl, ends', goesOn⟩ | ⟨jump, leaves⟩
        · exact .inl ⟨before ++ middle, last, (List.append_assoc ..).symm, .finished ends ends',
            goesOn⟩
        · exact .inr ⟨jump, .finished ends leaves⟩
      · exact .inr ⟨_, .jumped leaves⟩

/-- What commands meet is placed by them. -/
theorem mem_labels_of_allExecute {program : List Command} {trace : List Node} {outcome : Outcome}
    (executed : AllExecute program trace outcome) {statement : Node} (isMet : statement ∈ trace) :
    statement ∈ (nestingAll program).labels := by
  have ends : decide (outcome = .jumped .raising) = true ↔ outcome = .jumped .raising := by simp
  rcases (Graph.ofCommands_laidOut program).path_iff_execution.2 ⟨outcome, executed, ends⟩ with
    ⟨blocks, target, path, -, rfl, -⟩
  rcases List.mem_flatMap.1 isMet with ⟨id, -, isPlaced⟩
  exact Graph.mem_labels_of_mem_statements isPlaced

end Command

namespace Graph

variable {graph : Graph} {statement definition : Node} {before after : List Node}

/-- Paths lead to a block through blocks that are listed before it. -/
theorem exists_path_of_reachable_eq {front back : List BlockId} {id : BlockId}
    (split : graph.reachable = front ++ id :: back) :
    ∃ blocks, graph.Path graph.entry (blocks ++ [id]) id ∧ blocks ⊆ front := by
  rcases Search.exists_source_of_reached split with isEntry | ⟨source, isEarlier, edge⟩
  · rw [List.mem_singleton.1 isEntry]
    exact ⟨[], .single _, List.nil_subset _⟩
  · rcases List.append_of_mem isEarlier with ⟨front', between, frontEq⟩
    have split' : graph.reachable = front' ++ source :: (between ++ id :: back) := by
      rw [split, frontEq, List.append_assoc, List.cons_append]
    rcases exists_path_of_reachable_eq split' with ⟨blocks, path, inside⟩
    refine ⟨blocks ++ [source], path.extend edge, ?_⟩
    rw [frontEq]
    intro block isBlock
    rcases List.mem_append.1 isBlock with isBlock | isSource
    · exact List.mem_append_left _ (inside isBlock)
    · exact List.mem_append_right _ (by simp [List.mem_singleton.1 isSource])
termination_by front.length
decreasing_by
  rw [frontEq]
  simp

/-- A path goes on to a block where control ends. -/
theorem Path.exists_complete {source last : BlockId} {blocks : List BlockId}
    (path : graph.Path source blocks last) (canEnd : graph.CanEnd last) :
    ∃ rest exit, graph.Path source (blocks ++ rest) exit ∧ graph.successors exit = [] := by
  rcases canEnd with ⟨blocks', exit, path', isLast⟩
  rcases path.eq_append_target with ⟨front, rfl⟩
  have startsAtLast : ∃ rest, blocks' = last :: rest := by
    cases path' <;> exact ⟨_, rfl⟩
  rcases startsAtLast with ⟨rest, rfl⟩
  refine ⟨rest, exit, ?_, isLast⟩
  rw [List.append_assoc]
  exact path.join path'

/-- All paths to what is not placed before a plain statement meet that statement first. -/
theorem Reaches.mem_earlier {earlier : List Node}
    (isPlain : Command.ofNode definition = .place definition)
    (reaches : (ofStatements (before ++ definition :: after)).Reaches earlier statement)
    (notBefore : statement ∉ (Node.nestingAll before).labels) (differs : statement ≠ definition) :
    definition ∈ earlier := by
  have laid := ofCommands_laidOut (Command.ofNodes (before ++ definition :: after))
  rcases reaches with ⟨blocks, last, later, path, traceEq⟩
  have isReached := laid.wellFormed.mem_reachable_iff.2 ⟨blocks, path⟩
  have canEnd := canEnd_ofCommands _ (laid.wellFormed.lt_size_of_mem_reachable isReached)
  rcases path.exists_complete canEnd with ⟨rest, exit, complete, isLast⟩
  rcases laid.path_iff_execution.1 ⟨_, exit, complete, isLast, rfl, rfl⟩ with
    ⟨outcome, executed, -⟩
  have notMet : ∀ {met outcome}, Command.AllExecute (Command.ofNodes before) met outcome →
      statement ∉ met := by
    intro met outcome executed isMet
    apply notBefore
    rw [← Command.nestingAll_ofNodes]
    exact Command.mem_labels_of_allExecute executed isMet
  rw [ofStatements] at traceEq
  rw [trace_append, traceEq, Command.ofNodes_append, Command.ofNodes, isPlain] at executed
  rcases Command.allExecute_append executed with ⟨met, met', split, ends, goesOn⟩ | ⟨jump, leaves⟩
  · rcases goesOn with @⟨_, next, _, ⟨rfl, -⟩, -⟩ | ⟨-, ⟨⟩⟩
    rw [List.append_assoc, List.append_eq_append_iff] at split
    rcases split with ⟨between, metEq, splitRest⟩ | ⟨between, earlierEq, splitRest⟩
    · cases between with
      | nil =>
          rw [List.nil_append] at splitRest
          exact absurd (List.cons.inj splitRest).1 differs
      | cons head between =>
          rw [List.cons_append, List.cons_append] at splitRest
          apply absurd _ (notMet ends)
          simp [metEq, (List.cons.inj splitRest).1]
    · cases between with
      | nil =>
          rw [List.nil_append] at splitRest
          exact absurd (List.cons.inj splitRest).1.symm differs
      | cons head between =>
          rw [List.cons_append] at splitRest
          simp [earlierEq, (List.cons.inj splitRest).1]
  · apply absurd _ (notMet leaves)
    simp

/-- What is listed before the first occurrence of a plain statement is placed before it. -/
theorem mem_labels_of_listed_before {front back : List Node}
    (isPlain : Command.ofNode definition = .place definition)
    (split : (ofStatements (before ++ definition :: after)).reachableStatements = front ++ back)
    (isFirst : definition ∉ front) (isListed : statement ∈ front) :
    statement ∈ (Node.nestingAll before).labels := by
  by_contra notBefore
  rcases List.append_of_mem isListed with ⟨earlier, between, rfl⟩
  rw [List.append_assoc, List.cons_append] at split
  rcases exists_of_trace_eq split with
    ⟨blocks, id, blocks', front, back', reachableEq, statementsEq, earlierEq⟩
  rcases exists_path_of_reachable_eq reachableEq with ⟨passed, path, inside⟩
  have traceEq : (ofStatements (before ++ definition :: after)).trace (passed ++ [id]) =
      ((ofStatements (before ++ definition :: after)).trace passed ++ front) ++
        statement :: back' := by
    simp [statementsEq]
  have differs : statement ≠ definition := by
    rintro rfl
    exact isFirst (by simp)
  have isEarlier := Reaches.mem_earlier isPlain ⟨_, id, back', path, traceEq⟩ notBefore differs
  apply isFirst
  apply List.mem_append_left
  rw [earlierEq]
  rcases List.mem_append.1 isEarlier with isPassed | isFront
  · apply List.mem_append_left
    rcases List.mem_flatMap.1 isPassed with ⟨block, isBlock, isPlaced⟩
    exact List.mem_flatMap.2 ⟨block, inside isBlock, isPlaced⟩
  · exact List.mem_append_right _ isFront

end Graph

end FlowAnalysis
