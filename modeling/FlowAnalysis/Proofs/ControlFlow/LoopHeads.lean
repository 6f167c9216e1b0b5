import FlowAnalysis.Proofs.ControlFlow.Laying
import Mathlib.Order.WellFounded

/-!
# The heads of the loops cut every way around

Control that never goes on from a loop head soon comes to an end: within one round, however the
loops are nested and whatever jumps leave them. Where a command lies in a graph, the heads of its
own loops are enough to make control run out from its start, if it runs out from everywhere the
command can go on (`Graph.Cuts`). A loop is cut from the inside: with its head as one more place
where nothing is to be shown, the body is cut like any other commands, and then so is the head. For
the graph of a program, the heads that result are blocks with one statement each, none of them the
entry, and going on outside them is well founded (`Graph.exists_cutset`).
-/

namespace FlowAnalysis

namespace Graph

/-- Control goes on to the first block from the second one, which is reachable and none of the
heads. -/
def Onward (graph : Graph) (heads : List BlockId) (target source : BlockId) : Prop :=
  source ∈ graph.reachable ∧ source ∉ heads ∧ target ∈ graph.successors source

/-- Control that starts at a block and never goes on from a head comes to an end. -/
def RunsOut (graph : Graph) (heads : List BlockId) (id : BlockId) : Prop :=
  Acc (graph.Onward heads) id

/-- A block holds one statement, control returns to it, and it runs out from each of its
successors. -/
structure IsHead (graph : Graph) (heads : List BlockId) (head : BlockId) : Prop where
  statements : ∃ statement, graph.statements head = [statement]
  ne_entry : head ≠ graph.entry
  runsOut : ∀ target ∈ graph.successors head, graph.RunsOut heads target

/-- Some heads are added to others. -/
structure Extends (graph : Graph) (heads later : List BlockId) : Prop where
  subset : heads ⊆ later
  added : ∀ head ∈ later, head ∉ heads → graph.IsHead later head

/-- More heads make control run out from some blocks, if it does so from a block where it goes on
from there and wherever jumps go. -/
def Cuts (graph : Graph) (around : Surroundings) (starts : List BlockId) (stop : BlockId) : Prop :=
  ∀ heads, (∀ id, around.IsTarget id → graph.RunsOut heads id) → graph.RunsOut heads stop →
    ∃ later, graph.Extends heads later ∧ ∀ start ∈ starts, graph.RunsOut later start

/-- Blocks with one statement each, none of them the entry, without which there is no way around. -/
structure Cutset (graph : Graph) (heads : List BlockId) : Prop where
  statements : ∀ head ∈ heads, ∃ statement, graph.statements head = [statement]
  entry_notMem : graph.entry ∉ heads
  wellFounded : WellFounded (graph.Onward heads)

variable {graph : Graph} {around : Surroundings} {heads middle later : List BlockId}
  {start stop id : BlockId} {starts targets : List BlockId}

theorem RunsOut.mono (runsOut : graph.RunsOut heads id) (subset : heads ⊆ later) :
    graph.RunsOut later id :=
  Subrelation.accessible (fun ⟨reached, noHead, edge⟩ => ⟨reached, fun isHead =>
    noHead (subset isHead), edge⟩) runsOut

theorem RunsOut.of_mem (isHead : id ∈ heads) : graph.RunsOut heads id :=
  .intro id fun _ onward => absurd isHead onward.2.1

theorem RunsOut.of_leads (leads : graph.Leads id targets)
    (runsOut : ∀ target ∈ targets, graph.RunsOut heads target) : graph.RunsOut heads id :=
  .intro id fun target onward => runsOut target ((leads target).1 onward.2.2)

theorem IsHead.mono (isHead : graph.IsHead heads id) (subset : heads ⊆ later) :
    graph.IsHead later id where
  statements := isHead.statements
  ne_entry := isHead.ne_entry
  runsOut target edge := (isHead.runsOut target edge).mono subset

theorem Extends.refl (heads : List BlockId) : graph.Extends heads heads where
  subset := List.Subset.refl heads
  added _ isHead isNew := absurd isHead isNew

theorem Extends.trans (first : graph.Extends heads middle) (second : graph.Extends middle later) :
    graph.Extends heads later where
  subset := List.Subset.trans first.subset second.subset
  added head isHead isNew := by
    by_cases early : head ∈ middle
    · exact (first.added head early isNew).mono second.subset
    · exact second.added head isHead early

namespace Cuts

theorem refl (id : BlockId) : graph.Cuts around [id] id := by
  intro heads _ runsOut
  exact ⟨heads, .refl heads, by simpa using runsOut⟩

theorem nil (stop : BlockId) : graph.Cuts around [] stop := by
  intro heads _ _
  exact ⟨heads, .refl heads, by simp⟩

theorem trans (first : graph.Cuts around starts id) (second : graph.Cuts around [id] stop) :
    graph.Cuts around starts stop := by
  intro heads jumps runsOut
  rcases second heads jumps runsOut with ⟨middle, moreHeads, fromMiddle⟩
  have jumps' : ∀ id, around.IsTarget id → graph.RunsOut middle id :=
    fun id isTarget => (jumps id isTarget).mono moreHeads.subset
  rcases first middle jumps' (fromMiddle id (by simp)) with ⟨later, evenMore, fromStarts⟩
  exact ⟨later, moreHeads.trans evenMore, fromStarts⟩

theorem union {others : List BlockId} (first : graph.Cuts around starts stop)
    (second : graph.Cuts around others stop) : graph.Cuts around (starts ++ others) stop := by
  intro heads jumps runsOut
  rcases first heads jumps runsOut with ⟨middle, moreHeads, fromStarts⟩
  have jumps' : ∀ id, around.IsTarget id → graph.RunsOut middle id :=
    fun id isTarget => (jumps id isTarget).mono moreHeads.subset
  rcases second middle jumps' (runsOut.mono moreHeads.subset) with ⟨later, evenMore, fromOthers⟩
  refine ⟨later, moreHeads.trans evenMore, fun start startMem => ?_⟩
  rcases List.mem_append.1 startMem with isStart | isOther
  · exact (fromStarts start isStart).mono evenMore.subset
  · exact fromOthers start isOther

/-- A block from which control goes on to some others comes before these. -/
theorem visit (cuts : graph.Cuts around targets stop) (leads : graph.Leads id targets) :
    graph.Cuts around [id] stop := by
  intro heads jumps runsOut
  rcases cuts heads jumps runsOut with ⟨later, moreHeads, fromTargets⟩
  exact ⟨later, moreHeads, by simpa using .of_leads leads fromTargets⟩

theorem jump {jump : Jump} (leads : graph.Leads id (around.target? jump).toList) :
    graph.Cuts around [id] stop := by
  intro heads jumps _
  refine ⟨heads, .refl heads, ?_⟩
  have fromStart : graph.RunsOut heads id :=
    .of_leads leads fun target isTarget => jumps target ⟨jump, Option.mem_toList.1 isTarget⟩
  simpa using fromStart

theorem detour {body : Point → Point → Prop} (laid : graph.Detour body id stop)
    (cuts : ∀ {exit}, body ⟨id, 0⟩ exit → graph.Cuts around [id] exit.block) :
    graph.Cuts around [id] stop := by
  rcases laid with ⟨exit, laid, -, leads⟩
  exact (cuts laid).trans ((refl stop).visit leads)

theorem optionalDetour {commands : List Command} {body : Point → Point → Prop}
    (laid : graph.OptionalDetour commands body id stop)
    (cuts : ∀ {exit}, body ⟨id, 0⟩ exit → graph.Cuts around [id] exit.block) :
    graph.Cuts around [id] stop := by
  rw [Graph.OptionalDetour] at laid
  split at laid
  · subst laid
    exact refl id
  · exact detour laid cuts

/-- The head of a loop becomes a head before the body is cut: behind a round control is back at
it. -/
theorem loop {head join bodyEntry elseEntry : BlockId} {bound : List Node}
    (statements : ∃ statement, graph.statements head = [statement]) (neEntry : head ≠ graph.entry)
    (leads : graph.Leads head [bodyEntry, elseEntry])
    (bodyCuts : graph.Cuts (around.insideLoop ⟨head, join⟩ bound) [bodyEntry] head)
    (elseCuts : graph.Cuts around [elseEntry] join) : graph.Cuts around [head] join := by
  intro heads jumps runsOut
  rcases elseCuts heads jumps runsOut with ⟨behind, moreHeads, fromElse⟩
  have subset : behind ⊆ head :: behind := List.subset_cons_self head behind
  have jumps' : ∀ id, (around.insideLoop ⟨head, join⟩ bound).IsTarget id →
      graph.RunsOut (head :: behind) id := by
    intro id isTarget
    rcases Layout.of_isTarget_insideLoop isTarget with rfl | rfl | outer
    · exact .of_mem List.mem_cons_self
    · exact (runsOut.mono moreHeads.subset).mono subset
    · exact ((jumps id outer).mono moreHeads.subset).mono subset
  rcases bodyCuts (head :: behind) jumps' (.of_mem List.mem_cons_self) with
    ⟨later, evenMore, fromBody⟩
  have isHead : graph.IsHead later head := by
    refine ⟨statements, neEntry, fun target edge => ?_⟩
    rcases List.mem_pair.1 ((leads target).1 edge) with rfl | rfl
    · exact fromBody target (by simp)
    · exact ((fromElse target (by simp)).mono subset).mono evenMore.subset
  have added : graph.Extends behind later := by
    refine ⟨List.Subset.trans subset evenMore.subset, fun other isMember isNew => ?_⟩
    by_cases same : other = head
    · exact same ▸ isHead
    · exact evenMore.added other isMember (by simp [same, isNew])
  refine ⟨later, moreHeads.trans added, ?_⟩
  have fromHead : graph.RunsOut later head := .of_mem (evenMore.subset List.mem_cons_self)
  simpa using fromHead

/-- The handlers of a guarded body are cut before the body, from which control may go there. -/
theorem guarded {dispatch bodyEntry bodyExit elseEntry last : BlockId}
    (bodyCuts : graph.Cuts (around.guardedBy dispatch) [bodyEntry] bodyExit)
    (leads : graph.Leads bodyExit [elseEntry, dispatch])
    (elseCuts : graph.Cuts around [elseEntry] last)
    (handlersCut : graph.Cuts around [dispatch] last) : graph.Cuts around [bodyEntry] last := by
  intro heads jumps runsOut
  rcases (elseCuts.union handlersCut) heads jumps runsOut with ⟨behind, moreHeads, fromBehind⟩
  have jumps' : ∀ id, (around.guardedBy dispatch).IsTarget id → graph.RunsOut behind id := by
    intro id isTarget
    have isTarget' : (around.guardedBy ((some dispatch).getD around.handler)).IsTarget id :=
      isTarget
    rcases Layout.of_isTarget_guardedBy isTarget' with isDispatch | outer
    · exact fromBehind id (by simp [Option.mem_some.1 isDispatch])
    · exact (jumps id outer).mono moreHeads.subset
  have fromExit : graph.RunsOut behind bodyExit := .of_leads leads fromBehind
  rcases bodyCuts behind jumps' fromExit with ⟨later, evenMore, fromBody⟩
  exact ⟨later, moreHeads.trans evenMore, fromBody⟩

end Cuts

end Graph

namespace Command

open FlowAnalysis.Graph

variable {graph : Graph}

mutual

/-- Where a command lies, the heads of its loops cut every way around. -/
theorem LaidOut.cuts (wellFormed : graph.WellFormed) :
    (command : Command) → {around : Surroundings} → {start stop : Point} →
      LaidOut graph around command start stop → graph.Cuts around [start.block] stop.block
  | .place _, _, start, _, ⟨_, stopEq⟩ => by
      subst stopEq
      exact .refl start.block
  | .jump _ _, _, _, _, ⟨_, _, leads⟩ => .jump leads
  | .branch _ body rest, _, _, ⟨_, _⟩,
      ⟨condBlock, bodyEntry, restEntry, ⟨_, entered⟩, _, leads, bodyLaid, restLaid, rfl⟩ => by
      have bodyCuts := Cuts.detour bodyLaid (AllLaidOut.cuts wellFormed body)
      have restCuts := AlternativesLaidOut.cuts wellFormed rest restLaid
      exact .visit (.visit (bodyCuts.union restCuts) leads) entered
  | .loop _ head bound body orelse, _, _, ⟨_, _⟩,
      ⟨headBlock, bodyEntry, elseEntry, ⟨_, entered⟩, statements, leads, bodyLaid, elseLaid,
        rfl⟩ => by
      have bodyCuts := Cuts.detour bodyLaid (AllLaidOut.cuts wellFormed body)
      have elseCuts := Cuts.optionalDetour elseLaid (AllLaidOut.cuts wellFormed orelse)
      have edge := (entered headBlock).2 (by simp)
      have neEntry := wellFormed.target_ne_entry _ (mem_successors.1 edge)
      exact .visit (.loop ⟨head, statements⟩ neEntry leads bodyCuts elseCuts) entered
  | .bracket _ body, _, _, _, ⟨_, _, ⟨_, entered⟩, _, leads, bodyLaid⟩ =>
      .visit (.visit (AllLaidOut.cuts wellFormed body bodyLaid) leads) entered
  | .guarded body handlers orelse finalbody, _, _, ⟨_, _⟩,
      ⟨dispatch?, handlerEntries, bodyEntry, bodyExit, elseEntry, lastEntry, ⟨_, entered⟩, bodyLaid,
        ⟨_, bodyEnds⟩, _, dispatches, handlersLaid, elseLaid, finalLaid, rfl⟩ => by
      have bodyCuts := AllLaidOut.cuts wellFormed body bodyLaid
      have elseCuts := Cuts.optionalDetour elseLaid (AllLaidOut.cuts wellFormed orelse)
      have finalCuts := Cuts.optionalDetour finalLaid (AllLaidOut.cuts wellFormed finalbody)
      have handlersCut := HandlersLaidOut.cuts wellFormed handlers handlersLaid
      refine .visit (Cuts.trans ?_ finalCuts) entered
      cases dispatch? with
      | none => exact bodyCuts.trans (elseCuts.visit bodyEnds)
      | some dispatch =>
          exact .guarded bodyCuts bodyEnds elseCuts (handlersCut.visit (dispatches dispatch rfl).2)

theorem AllLaidOut.cuts (wellFormed : graph.WellFormed) :
    (commands : List Command) → {around : Surroundings} → {start stop : Point} →
      AllLaidOut graph around commands start stop → graph.Cuts around [start.block] stop.block
  | [], _, _, stop, stopEq => by
      rw [AllLaidOut] at stopEq
      subst stopEq
      exact .refl stop.block
  | command :: rest, _, _, _, ⟨_, laid, restLaid⟩ =>
      (LaidOut.cuts wellFormed command laid).trans (AllLaidOut.cuts wellFormed rest restLaid)

theorem AlternativesLaidOut.cuts (wellFormed : graph.WellFormed) :
    (rest : Alternatives) → {around : Surroundings} → {entry join : BlockId} →
      AlternativesLaidOut graph around rest entry join → graph.Cuts around [entry] join
  | .none, _, entry, _, joinEq => by
      rw [AlternativesLaidOut] at joinEq
      subst joinEq
      exact .refl entry
  | .further _ body rest, _, _, _, ⟨_, _, _, leads, bodyLaid, restLaid⟩ => by
      have bodyCuts := Cuts.detour bodyLaid (AllLaidOut.cuts wellFormed body)
      exact .visit (bodyCuts.union (AlternativesLaidOut.cuts wellFormed rest restLaid)) leads
  | .otherwise _ body, _, _, _, ⟨_, _, leads, bodyLaid⟩ =>
      .visit (.detour bodyLaid (AllLaidOut.cuts wellFormed body)) leads

theorem HandlersLaidOut.cuts (wellFormed : graph.WellFormed) :
    (handlers : List (List Command)) → {around : Surroundings} → {entries : List BlockId} →
      {target : BlockId} → HandlersLaidOut graph around handlers entries target →
      graph.Cuts around entries target
  | [], _, _, target, entriesEq => by
      rw [HandlersLaidOut] at entriesEq
      subst entriesEq
      exact .nil target
  | handler :: rest, _, _, _, ⟨_, _, entriesEq, handlerLaid, restLaid⟩ => by
      subst entriesEq
      have handlerCuts := Cuts.detour handlerLaid (AllLaidOut.cuts wellFormed handler)
      exact handlerCuts.union (HandlersLaidOut.cuts wellFormed rest restLaid)

end

end Command

namespace Graph

variable {graph : Graph}

/-- If control runs out from the entry and from behind each head, it runs out from everywhere. -/
theorem wellFounded_onward (wellFormed : graph.WellFormed) {heads : List BlockId}
    (areHeads : ∀ head ∈ heads, graph.IsHead heads head)
    (runsOut : graph.RunsOut heads graph.entry) : WellFounded (graph.Onward heads) := by
  have alongPath : ∀ {source target blocks}, graph.Path source blocks target →
      graph.RunsOut heads source → source ∈ graph.reachable → graph.RunsOut heads target := by
    intro source target blocks path fromSource reached
    induction path with
    | single => exact fromSource
    | @step source next target blocks edge _ ih =>
        refine ih ?_ (wellFormed.mem_reachable_of_successor reached edge)
        by_cases isHead : source ∈ heads
        · exact (areHeads source isHead).runsOut next edge
        · exact fromSource.inv ⟨reached, isHead, edge⟩
  refine ⟨fun id => ?_⟩
  by_cases reached : id ∈ graph.reachable
  · rcases wellFormed.mem_reachable_iff.1 reached with ⟨blocks, path⟩
    exact alongPath path runsOut wellFormed.entry_mem_reachable
  · exact .intro id fun _ onward => absurd onward.1 reached

/-- The heads of its loops cut every way around in the graph of a program. -/
theorem exists_cutset {root : Node} (built : ofRoot root = .ok graph) :
    ∃ heads, graph.Cutset heads := by
  have laidOut := ofRoot_laidOut built
  rcases laidOut.laid with ⟨stop, laid, ⟨-, stopLeads⟩, -⟩
  have fromStop : graph.RunsOut [] stop.block := .of_leads stopLeads (by simp)
  have jumps : ∀ id, (Surroundings.outside graph.exceptionalExit).IsTarget id →
      graph.RunsOut [] id := by
    intro id isTarget
    rcases Layout.of_isTarget_outside isTarget with rfl
    exact .of_leads laidOut.exit_leads (by simp)
  rcases Command.AllLaidOut.cuts laidOut.wellFormed _ laid [] jumps fromStop with
    ⟨heads, extended, fromEntry⟩
  have areHeads : ∀ head ∈ heads, graph.IsHead heads head :=
    fun head isHead => extended.added head isHead List.not_mem_nil
  exact ⟨heads, fun head isHead => (areHeads head isHead).statements,
    fun isHead => (areHeads _ isHead).ne_entry rfl,
    wellFounded_onward laidOut.wellFormed areHeads (fromEntry _ (by simp))⟩

end Graph

end FlowAnalysis
