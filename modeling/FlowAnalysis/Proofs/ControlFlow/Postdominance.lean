import FlowAnalysis.ControlFlow.Construction
import FlowAnalysis.ControlFlow.Postdominance
import FlowAnalysis.Proofs.ControlFlow.Laying
import FlowAnalysis.Proofs.ControlFlow.Realization
import Mathlib.Logic.Function.Iterate

/-!
# Postdominance is exact

The facts that the sweeps settle on are a fixpoint, so what a block has as a postdominator is on
every path from it on which control ends, by induction on the path. Conversely a visit takes a
postdominator away only if some path avoids it: that every missing postdominator can be avoided is
an invariant of the visits. Every program has an execution, so control can always end.
-/

namespace FlowAnalysis

namespace Graph

variable {graph : Graph}

/-- Control that is at a block can end without passing through another one. -/
def Avoidable (graph : Graph) (avoided id : BlockId) : Prop :=
  ∃ blocks exit, graph.Path id blocks exit ∧ graph.successors exit = [] ∧ avoided ∉ blocks

theorem Avoidable.step {avoided id successor : BlockId} (edge : successor ∈ graph.successors id)
    (differs : avoided ≠ id) (avoidable : graph.Avoidable avoided successor) :
    graph.Avoidable avoided id := by
  rcases avoidable with ⟨blocks, exit, path, isLast, notMem⟩
  refine ⟨id :: blocks, exit, .step edge path, isLast, ?_⟩
  simp [differs, notMem]

theorem mem_exits {id : BlockId} :
    id ∈ graph.exits ↔ id ∈ graph.reachable ∧ graph.successors id = [] := by
  simp [exits]

/-- Control can end. -/
theorem exits_ne_nil {root : Node} (built : ofRoot root = .ok graph) : graph.exits ≠ [] := by
  have laid := ofRoot_laidOut built
  rcases Command.exists_allExecute (Command.ofNodes root.body) with ⟨trace, outcome, executed⟩
  rcases laid.path_iff_execution.2
      ⟨outcome, executed, decide_eq_true_iff⟩ with
    ⟨blocks, exit, path, isLast, -, -⟩
  have reached := laid.wellFormed.mem_reachable_iff.2 ⟨blocks, path⟩
  exact List.ne_nil_of_mem (mem_exits.2 ⟨reached, isLast⟩)

end Graph

namespace Postdominators

open PostdominatorFact

variable {graph : Graph} {facts : PostdominatorFacts}

/-! ### Where the sweeps end -/

/-- What holds of some facts and is kept by visits holds of the facts that the sweeps settle on. -/
theorem settle_induction {motive : PostdominatorFacts → Prop}
    (visited : ∀ facts, Descending graph facts → ∀ id ∈ inner graph, motive facts →
      motive (visit graph facts id))
    (descending : Descending graph facts) (start : motive facts) :
    motive (settle graph facts descending) := by
  have visits : ∀ ids : List BlockId, ids ⊆ inner graph → ∀ facts, Descending graph facts →
      motive facts → motive (ids.foldl (visit graph) facts) := by
    intro ids
    induction ids with
    | nil => exact fun _ facts _ start => start
    | cons id rest ih =>
        intro areInner facts descending start
        have isInner := areInner List.mem_cons_self
        exact ih (List.subset_of_cons_subset areInner) _ (descending.visit isInner)
          (visited facts descending id isInner start)
  fun_induction settle graph facts descending with
  | case1 => exact start
  | case2 facts descending _ ih => exact ih (visits _ (List.Subset.refl _) facts descending start)

/-- The sweeps settle after finitely many rounds, on facts that a further one leaves alone. -/
theorem settle_eq_iterate (descending : Descending graph facts) :
    ∃ rounds, settle graph facts descending = (sweep graph)^[rounds] facts ∧
      sweep graph (settle graph facts descending) = settle graph facts descending := by
  fun_induction settle graph facts descending with
  | case1 _ _ settled => exact ⟨0, rfl, settled⟩
  | case2 _ _ _ ih =>
      rcases ih with ⟨rounds, reached, settled⟩
      exact ⟨rounds + 1, reached, settled⟩

/-- A sweep that changes nothing consists of visits that change nothing. -/
theorem Descending.visit_eq_of_sweep_eq (descending : Descending graph facts)
    (settled : Postdominators.sweep graph facts = facts) :
    ∀ id ∈ inner graph, Postdominators.visit graph facts id = facts := by
  have visits : ∀ ids : List BlockId, ids ⊆ inner graph →
      ids.foldl (Postdominators.visit graph) facts = facts →
      ∀ id ∈ ids, Postdominators.visit graph facts id = facts := by
    intro ids
    induction ids with
    | nil => simp
    | cons first rest ih =>
        intro areInner unchanged
        have isInner := areInner List.mem_cons_self
        have restInner := List.subset_of_cons_subset areInner
        rw [List.foldl_cons] at unchanged
        have firstUnchanged : Postdominators.visit graph facts first = facts := by
          refine (descending.visit_eq_or_height_lt isInner).resolve_right ?_
          intro lowers
          rcases ((descending.visit isInner).visits restInner).2 with restUnchanged | restLowers
          · rw [← restUnchanged, unchanged, Prod.lex_def] at lowers
            omega
          · rw [unchanged, Prod.lex_def] at restLowers
            rw [Prod.lex_def] at lowers
            omega
        rw [firstUnchanged] at unchanged
        exact List.forall_mem_cons.2 ⟨firstUnchanged, ih restInner unchanged⟩
  exact visits _ (List.Subset.refl _) settled

theorem same_update_of_visit_eq {id : BlockId} {fact : PostdominatorFact}
    (known : facts.lookup id = some fact) (unchanged : visit graph facts id = facts) :
    ∀ other, (update graph facts id).lookup other = fact.lookup other := by
  rw [visit] at unchanged
  split at unchanged
  · next isSame =>
      rw [known, Option.any_some] at isSame
      exact same_iff.1 isSame
  · have replaced : (replace facts id (update graph facts id)).lookup id = _ :=
      lookup_replace id id (update graph facts id)
    rw [unchanged, known, if_pos rfl, Option.map_some] at replaced
    rw [Option.some.inj replaced]
    exact fun _ => rfl

/-- The facts about exits stay as they are. -/
theorem lookup_settle_of_mem_exits (descending : Descending graph (initial graph)) {id : BlockId}
    (isExit : id ∈ graph.exits) :
    (settle graph (initial graph) descending).lookup id = (initial graph).lookup id := by
  apply settle_induction (motive := fun facts => facts.lookup id = (initial graph).lookup id)
  · intro facts _ visited isInner unchanged
    have differs : id ≠ visited := by
      rintro rfl
      exact (mem_inner.1 isInner).2 isExit
    rw [visit]
    split
    · exact unchanged
    · rw [lookup_replace, if_neg differs, unchanged]
  · rfl

/-! ### Paths -/

/-- The facts are those of a settled sweep: those about exits are the first ones, and a visit finds
no others about inner blocks. -/
structure Settled (graph : Graph) (facts : PostdominatorFacts) : Prop where
  known : ∀ id ∈ graph.reachable, facts.lookup id ≠ none
  exit : ∀ id ∈ graph.exits, facts.lookup id = (initial graph).lookup id
  inner : ∀ id ∈ inner graph, ∀ fact ∈ facts.lookup id, ∀ other,
    (update graph facts id).lookup other = fact.lookup other

theorem settled_settle (descending : Descending graph (initial graph)) :
    Settled graph (settle graph (initial graph) descending) := by
  have stays : Descending graph (settle graph (initial graph) descending) :=
    settle_induction (fun _ descending _ isInner _ => descending.visit isInner) descending descending
  rcases settle_eq_iterate descending with ⟨_, -, settled⟩
  refine ⟨stays.known, fun _ => lookup_settle_of_mem_exits descending, ?_⟩
  intro id isInner fact known
  exact same_update_of_visit_eq known (stays.visit_eq_of_sweep_eq settled id isInner)

/-- Control cannot end without passing through the settled postdominators of a block. -/
theorem Settled.mem_of_path (settled : Settled graph facts) (wellFormed : graph.WellFormed)
    {id exit postdominator : BlockId} {blocks : List BlockId} (path : graph.Path id blocks exit)
    (isLast : graph.successors exit = []) (reached : id ∈ graph.reachable)
    (included : Includes (facts.lookup id) postdominator) : postdominator ∈ blocks := by
  induction path with
  | single id =>
      have isExit := Graph.mem_exits.2 ⟨reached, isLast⟩
      rw [settled.exit id isExit, initial, lookup_map, if_pos reached, if_pos isExit,
        includes_some, lookup_record] at included
      split at included
      · next isSelf => exact List.mem_singleton.2 isSelf
      · exact absurd rfl included
  | @step id next exit blocks edge rest ih =>
      have notExit : id ∉ graph.exits := by
        intro isExit
        have last := (Graph.mem_exits.1 isExit).2
        rw [last] at edge
        exact List.not_mem_nil edge
      rcases Option.ne_none_iff_exists'.1 (settled.known id reached) with ⟨fact, known⟩
      rw [known, includes_some, ← settled.inner id (mem_inner.2 ⟨reached, notExit⟩) fact known,
        lookup_update_ne_none] at included
      rcases included with rfl | ⟨-, everywhere⟩
      · exact List.mem_cons_self
      · have nextReached := wellFormed.mem_reachable_of_successor reached edge
        exact List.mem_cons_of_mem _ (ih isLast nextReached (everywhere next edge))

/-- What is missing among the postdominators of a block can be avoided. -/
def Complete (graph : Graph) (facts : PostdominatorFacts) : Prop :=
  ∀ id ∈ graph.reachable, ∀ other ∈ graph.reachable,
    ¬Includes (facts.lookup id) other → graph.Avoidable other id

theorem complete_initial (graph : Graph) : Complete graph (initial graph) := by
  intro id reached other otherReached excluded
  by_cases isExit : id ∈ graph.exits
  · refine ⟨[id], id, .single id, (Graph.mem_exits.1 isExit).2, ?_⟩
    intro isSelf
    apply excluded
    rw [initial, lookup_map, if_pos reached, includes_some, List.mem_singleton.1 isSelf]
    simp
  · exfalso
    apply excluded
    rw [initial, lookup_map, if_pos reached, includes_some, if_neg isExit, lookup_record,
      lookup_map, if_pos otherReached]
    split <;> simp

/-- A visit takes a postdominator away only if it can be avoided at some successor. -/
theorem Complete.visit (complete : Complete graph facts) (wellFormed : graph.WellFormed)
    (descending : Descending graph facts) {visited : BlockId} (isInner : visited ∈ inner graph) :
    Complete graph (visit graph facts visited) := by
  intro id reached other otherReached excluded
  rw [Postdominators.visit] at excluded
  split at excluded
  · exact complete id reached other otherReached excluded
  · rw [lookup_replace] at excluded
    split at excluded
    · next isVisited =>
        subst isVisited
        rcases Option.ne_none_iff_exists'.1 (descending.known id reached) with ⟨fact, known⟩
        rw [known, Option.map_some, includes_some, lookup_update_ne_none, not_or] at excluded
        rcases excluded with ⟨differs, notEverywhere⟩
        have someSuccessor : graph.successors id ≠ [] := fun isLast =>
          (mem_inner.1 isInner).2 (Graph.mem_exits.2 ⟨reached, isLast⟩)
        rcases List.exists_mem_of_ne_nil _ someSuccessor with ⟨first, firstEdge⟩
        have firstKnown := descending.known first
          (wellFormed.mem_reachable_of_successor reached firstEdge)
        have somewhere : ∃ successor ∈ graph.successors id,
            ¬Includes (facts.lookup successor) other := by
          by_contra everywhere
          push Not at everywhere
          exact notEverywhere ⟨⟨first, firstEdge, firstKnown⟩, everywhere⟩
        rcases somewhere with ⟨successor, edge, absent⟩
        have successorReached := wellFormed.mem_reachable_of_successor reached edge
        exact .step edge differs (complete successor successorReached other otherReached absent)
    · exact complete id reached other otherReached excluded

/-! ### The main result -/

theorem postdominates_iff_includes {postdominators : Postdominators} {postdominator id : BlockId}
    (known : postdominators.facts.lookup id ≠ none) :
    postdominators.postdominates postdominator id = true ↔
      Includes (postdominators.facts.lookup id) postdominator := by
  rcases Option.ne_none_iff_exists'.1 known with ⟨fact, factEq⟩
  rw [postdominates, of, factEq, includes_some, Option.getD_some, List.any_eq_true]
  constructor
  · rintro ⟨⟨other, distance⟩, entryMem, isOther⟩ missing
    have differs := List.lookup_eq_none_iff.1 missing _ entryMem
    simp_all
  · intro present
    rcases Option.ne_none_iff_exists'.1 present with ⟨distance, found⟩
    exact ⟨_, mem_of_lookup_eq_some found, beq_self_eq_true _⟩

/-- For every graph of a program the sweeps come to an end, and they find that a block postdominates
another one if and only if it is on every path from there on which control ends. -/
theorem exists_ofGraph_postdominates_iff {root : Node} (built : Graph.ofRoot root = .ok graph) :
    ∃ postdominators, ofGraph graph = .ok postdominators ∧
      (∃ rounds, postdominators.facts = (sweep graph)^[rounds] (initial graph) ∧
        sweep graph postdominators.facts = postdominators.facts) ∧
      ∀ id ∈ graph.reachable, ∀ other ∈ graph.reachable,
        (postdominators.postdominates other id = true ↔
          ∀ blocks exit, graph.Path id blocks exit → graph.successors exit = [] →
            other ∈ blocks) := by
  have wellFormed := (Graph.ofRoot_laidOut built).wellFormed
  have descending := descending_initial graph
  have someExit : graph.exits.isEmpty = false :=
    List.isEmpty_eq_false_iff.2 (Graph.exits_ne_nil built)
  have settled := settled_settle descending
  have complete : Complete graph (settle graph (initial graph) descending) :=
    settle_induction (fun _ descending _ isInner complete =>
      complete.visit wellFormed descending isInner) descending (complete_initial graph)
  refine ⟨⟨settle graph (initial graph) descending⟩, by simp [ofGraph, someExit],
    settle_eq_iterate descending, ?_⟩
  intro id reached other otherReached
  rw [postdominates_iff_includes (settled.known id reached)]
  constructor
  · intro included blocks exit path isLast
    exact settled.mem_of_path wellFormed path isLast reached included
  · intro unavoidable
    by_contra excluded
    rcases complete id reached other otherReached excluded with
      ⟨blocks, exit, path, isLast, avoided⟩
    exact avoided (unavoidable blocks exit path isLast)

/-- A conditional that may raise, and a statement after it. -/
def conditionalRaise : Node :=
  ⟨.module [⟨.conditional ⟨.pass, default⟩ [⟨.raiseError none, default⟩] [] none, default⟩,
    ⟨.pass, default⟩], default⟩

/-- The condition postdominates the entry, but what it guards does not postdominate it. -/
theorem postdominates_conditionalRaise : ∃ graph postdominators,
    Graph.ofRoot conditionalRaise = .ok graph ∧ ofGraph graph = .ok postdominators ∧
      postdominators.postdominates 2 graph.entry = true ∧
      postdominators.postdominates 3 2 = false := by
  have built : Graph.ofRoot conditionalRaise = .ok _ := rfl
  rcases exists_ofGraph_postdominates_iff built with ⟨postdominators, found, -, exact⟩
  refine ⟨_, postdominators, rfl, found, ?_, ?_⟩
  · apply (exact _ (by decide) 2 (by decide)).2
    intro blocks exit path isLast
    cases path with
    | single => exact absurd isLast (by decide)
    | @step _ next _ _ edge rest =>
        have nextEq : next = 2 := List.mem_singleton.1 edge
        exact List.mem_cons_of_mem _ (nextEq ▸ rest.source_mem)
  · rw [Bool.eq_false_iff]
    intro claimed
    have unavoidable := (exact 2 (by decide) 3 (by decide)).1 claimed
    exact absurd (unavoidable [2, 5] 5 (.step (by decide) (.single 5)) (by decide)) (by decide)

end Postdominators

end FlowAnalysis
