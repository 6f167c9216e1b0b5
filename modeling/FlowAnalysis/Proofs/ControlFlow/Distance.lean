import FlowAnalysis.Proofs.ControlFlow.Ending
import FlowAnalysis.Proofs.ControlFlow.Postdominance
import Mathlib.Data.List.Nodup

/-!
# Distances to postdominators

Where control can always end, the postdominators that the sweeps settle on come with their
distances: a block is listed exactly once among those of another one if it postdominates it, at the
length of a shortest path. That the distances are short is shown by induction on a path; that they
are the lengths of paths by induction on the distance, since the distance of an inner block is one
more than that of some successor. The nearest postdominator of a block other than itself is then
postdominated by all the others.
-/

namespace FlowAnalysis

namespace Graph

variable {graph : Graph} {id other third : BlockId} {blocks : List BlockId}

/-- Control that is at a block cannot end without passing through another one. -/
def Postdominates (graph : Graph) (other id : BlockId) : Prop :=
  ∀ blocks exit, graph.Path id blocks exit → graph.successors exit = [] → other ∈ blocks

/-- A shortest path to another block has a number of edges. -/
structure Distance (graph : Graph) (id other : BlockId) (distance : Nat) : Prop where
  exists_path : ∃ blocks, graph.Path id blocks other ∧ blocks.length = distance + 1
  le_length : ∀ blocks, graph.Path id blocks other → distance < blocks.length

theorem Distance.eq {distance distance' : Nat} (isDistance : graph.Distance id other distance)
    (isDistance' : graph.Distance id other distance') : distance = distance' := by
  rcases isDistance.exists_path with ⟨blocks, path, lengthEq⟩
  rcases isDistance'.exists_path with ⟨blocks', path', lengthEq'⟩
  have := isDistance.le_length blocks' path'
  have := isDistance'.le_length blocks path
  omega

theorem Path.eq_cons_source {target : BlockId} (path : graph.Path id blocks target) :
    ∃ after, blocks = id :: after := by
  cases path with
  | single => exact ⟨[], rfl⟩
  | step => exact ⟨_, rfl⟩

/-- A path that meets a block for the first time splits there. -/
theorem Path.split_first {target : BlockId} (path : graph.Path id blocks target)
    (met : other ∈ blocks) :
    ∃ before after, blocks = before ++ other :: after ∧ other ∉ before ∧
      graph.Path id (before ++ [other]) other ∧ graph.Path other (other :: after) target := by
  rcases List.eq_append_cons_of_mem met with ⟨before, after, rfl, notBefore⟩
  exact ⟨before, after, rfl, notBefore, path.split⟩

namespace Postdominates

theorem refl (id : BlockId) : graph.Postdominates id id :=
  fun _ _ path _ => path.source_mem

theorem trans (postdominates : graph.Postdominates third other)
    (postdominates' : graph.Postdominates other id) : graph.Postdominates third id := by
  intro blocks exit path isLast
  rcases path.split_first (postdominates' blocks exit path isLast) with
    ⟨before, after, rfl, -, -, fromOther⟩
  exact List.mem_append_right _ (postdominates _ exit fromOther isLast)

/-- What postdominates a block also postdominates the blocks on the way from there to it. -/
theorem of_path {before : List BlockId} (postdominates : graph.Postdominates other id)
    (path : graph.Path id (before ++ [third]) third) (notBefore : other ∉ before) :
    graph.Postdominates other third := by
  intro blocks exit rest isLast
  rcases rest.eq_cons_source with ⟨after, rfl⟩
  have met := postdominates _ exit (path.join rest) isLast
  exact (List.mem_append.1 met).resolve_left notBefore

end Postdominates

end Graph

namespace Postdominators

open PostdominatorFact

variable {graph : Graph} {facts : PostdominatorFacts} {id other : BlockId}

/-! ### Distances over successors -/

theorem lesser_atMost (left right : Option (Option Nat)) :
    AtMost (lesser left right) left ∧ AtMost (lesser left right) right := by
  rcases left with _ | _ | left <;> rcases right with _ | _ | right <;>
    simp only [lesser, nearer, AtMost, and_self, decide_eq_true_eq] <;> grind [AtMost]

theorem eq_or_eq_of_lesser {left right : Option (Option Nat)} {distance : Option Nat}
    (found : lesser left right = some distance) : left = some distance ∨ right = some distance := by
  rcases left with _ | left
  · cases found
  · rcases right with _ | right
    · cases found
    · simp only [lesser, Option.some.injEq] at found
      split at found
      · exact .inr (congrArg some found)
      · exact .inl (congrArg some found)

section MeetWith

variable {met? fact? : Option PostdominatorFact} {met : PostdominatorFact}

theorem atMost_meetWith (metEq : meetWith met? fact? = some met) (other : BlockId) :
    (∀ start ∈ met?, AtMost (met.lookup other) (start.lookup other)) ∧
      ∀ fact ∈ fact?, AtMost (met.lookup other) ((fact.lookup other).map further) := by
  rcases fact? with _ | fact
  · rw [meetWith] at metEq
    subst metEq
    refine ⟨?_, by simp⟩
    rintro start ⟨⟩
    exact .refl _
  · rcases met? with _ | before
    · rw [meetWith] at metEq
      cases metEq
      refine ⟨by simp, ?_⟩
      rintro _ ⟨⟩
      rw [lookup_behind]
      exact .refl _
    · rw [meetWith] at metEq
      cases metEq
      have below := lesser_atMost (before.lookup other) ((fact.lookup other).map further)
      rw [lookup_meet]
      refine ⟨?_, ?_⟩
      · rintro _ ⟨⟩
        exact below.1
      · rintro _ ⟨⟩
        exact below.2

theorem exists_of_meetWith (metEq : meetWith met? fact? = some met) {other : BlockId}
    {distance : Option Nat} (found : met.lookup other = some distance) :
    (∃ start ∈ met?, start.lookup other = some distance) ∨
      ∃ fact ∈ fact?, (fact.lookup other).map further = some distance := by
  rcases fact? with _ | fact
  · exact .inl ⟨met, metEq, found⟩
  · rcases met? with _ | before
    · rw [meetWith] at metEq
      cases metEq
      rw [lookup_behind] at found
      exact .inr ⟨fact, rfl, found⟩
    · rw [meetWith] at metEq
      cases metEq
      rw [lookup_meet] at found
      rcases eq_or_eq_of_lesser found with older | newer
      · exact .inl ⟨before, rfl, older⟩
      · exact .inr ⟨fact, rfl, newer⟩

end MeetWith

/-- What postdominates all of some blocks is no further away than one block beyond any of them. -/
theorem atMost_meetOver {successors : List BlockId} {met : PostdominatorFact}
    (metEq : meetOver facts successors = some met) {successor : BlockId}
    (isSuccessor : successor ∈ successors) {fact : PostdominatorFact}
    (known : facts.lookup successor = some fact) (other : BlockId) :
    AtMost (met.lookup other) ((fact.lookup other).map further) := by
  have fold : ∀ (successors : List BlockId) (met? : Option PostdominatorFact),
      successors.foldl (fun met? successor => meetWith met? (facts.lookup successor)) met? =
          some met →
        (∀ start ∈ met?, AtMost (met.lookup other) (start.lookup other)) ∧
          (successor ∈ successors →
            AtMost (met.lookup other) ((fact.lookup other).map further)) := by
    intro successors
    induction successors with
    | nil =>
        intro met? metEq
        refine ⟨?_, fun absent => absurd absent List.not_mem_nil⟩
        rintro start startMem
        rw [List.foldl_nil, Option.mem_def.1 startMem] at metEq
        exact Option.some.inj metEq ▸ .refl _
    | cons first rest ih =>
        intro met? metEq
        rw [List.foldl_cons] at metEq
        rcases ih _ metEq with ⟨belowFirst, belowRest⟩
        cases nextEq : meetWith met? (facts.lookup first) with
        | none =>
            rw [nextEq] at belowFirst
            have missing : met? = none ∧ facts.lookup first = none := by
              cases firstEq : facts.lookup first <;> cases met? <;>
                simp [firstEq, meetWith] at nextEq ⊢
            refine ⟨by simp [missing.1], fun isMember => ?_⟩
            rcases List.mem_cons.1 isMember with rfl | later
            · rw [missing.2] at known
              cases known
            · exact belowRest later
        | some next =>
            have below := atMost_meetWith nextEq other
            have belowNext := belowFirst next nextEq
            refine ⟨fun start startMem => belowNext.trans (below.1 start startMem), ?_⟩
            intro isMember
            rcases List.mem_cons.1 isMember with rfl | later
            · exact belowNext.trans (below.2 fact known)
            · exact belowRest later
  exact (fold successors none metEq).2 isSuccessor

/-- What postdominates all of some blocks is one block beyond some of them. -/
theorem exists_of_meetOver {successors : List BlockId} {met : PostdominatorFact}
    (metEq : meetOver facts successors = some met) {distance : Option Nat}
    (found : met.lookup other = some distance) :
    ∃ successor ∈ successors, ∃ fact ∈ facts.lookup successor,
      (fact.lookup other).map further = some distance := by
  have fold : ∀ (successors : List BlockId) (met? : Option PostdominatorFact),
      successors.foldl (fun met? successor => meetWith met? (facts.lookup successor)) met? =
          some met →
        (∃ start ∈ met?, start.lookup other = some distance) ∨
          ∃ successor ∈ successors, ∃ fact ∈ facts.lookup successor,
            (fact.lookup other).map further = some distance := by
    intro successors
    induction successors with
    | nil => exact fun met? metEq => .inl ⟨met, metEq, found⟩
    | cons first rest ih =>
        intro met? metEq
        rw [List.foldl_cons] at metEq
        rcases ih _ metEq with ⟨next, nextEq, nextFound⟩ | ⟨successor, isMember, attained⟩
        · rcases exists_of_meetWith nextEq nextFound with older | ⟨fact, factMem, newer⟩
          · exact .inl older
          · exact .inr ⟨first, List.mem_cons_self, fact, factMem, newer⟩
        · exact .inr ⟨successor, List.mem_cons_of_mem _ isMember, attained⟩
  rcases fold successors none metEq with ⟨_, absent, _⟩ | attained
  · cases absent
  · exact attained

/-! ### Distances at the end of the sweeps -/

namespace Settled

variable (settled : Settled graph facts)

include settled

theorem lookup_self (reached : id ∈ graph.reachable) {fact : PostdominatorFact}
    (known : facts.lookup id = some fact) : fact.lookup id = some (some 0) := by
  by_cases isExit : id ∈ graph.exits
  · have start := settled.exit id isExit
    have distance := lookup_initial graph id id
    rw [← start, known, Option.bind_some] at distance
    simpa [reached] using distance
  · rw [← settled.inner id (mem_inner.2 ⟨reached, isExit⟩) fact known, update, lookup_record,
      if_pos rfl]

/-- Apart from the block itself, the settled distances of an inner block are those over its
successors. -/
theorem exists_meetOver (reached : id ∈ graph.reachable) {fact : PostdominatorFact}
    (known : facts.lookup id = some fact) (differs : other ≠ id) {distance : Option Nat}
    (found : fact.lookup other = some distance) :
    ∃ met, meetOver facts (graph.successors id) = some met ∧ met.lookup other = some distance := by
  by_cases isExit : id ∈ graph.exits
  · have start := settled.exit id isExit
    have missing := lookup_initial graph id other
    rw [← start, known, Option.bind_some, found] at missing
    simp [reached, differs, isExit] at missing
  · rw [← settled.inner id (mem_inner.2 ⟨reached, isExit⟩) fact known, update, lookup_record,
      if_neg differs] at found
    cases metEq : meetOver facts (graph.successors id) with
    | none => simp [metEq] at found
    | some met =>
        rw [metEq, Option.getD_some] at found
        exact ⟨met, rfl, found⟩

/-- A settled distance is the length of a path. -/
theorem exists_path (wellFormed : graph.WellFormed) {distance : Nat}
    (reached : id ∈ graph.reachable) {fact : PostdominatorFact}
    (known : facts.lookup id = some fact) (found : fact.lookup other = some (some distance)) :
    ∃ blocks, graph.Path id blocks other ∧ blocks.length = distance + 1 := by
  induction distance generalizing id fact with
  | zero =>
      by_cases isSelf : other = id
      · subst isSelf
        exact ⟨[other], .single other, rfl⟩
      · rcases settled.exists_meetOver reached known isSelf found with ⟨met, metEq, metFound⟩
        rcases exists_of_meetOver metEq metFound with ⟨successor, -, fact', -, attained⟩
        rcases fact'.lookup other with _ | _ | distance <;> simp [further] at attained
  | succ distance ih =>
      have differs : other ≠ id := by
        rintro rfl
        rw [settled.lookup_self reached known] at found
        cases found
      rcases settled.exists_meetOver reached known differs found with ⟨met, metEq, metFound⟩
      rcases exists_of_meetOver metEq metFound with ⟨successor, edge, fact', known', attained⟩
      have closer : fact'.lookup other = some (some distance) := by
        rcases Option.map_eq_some_iff.1 attained with ⟨distance', found', further'⟩
        rcases distance' with _ | distance' <;> simp [further] at further'
        rw [found', further']
      have successorReached := wellFormed.mem_reachable_of_successor reached edge
      rcases ih successorReached known' closer with ⟨blocks, path, lengthEq⟩
      exact ⟨id :: blocks, .step edge path, by simp [lengthEq]⟩

/-- Along every path to a postdominator its settled distance is finite and at most the length. -/
theorem lt_length_of_path (wellFormed : graph.WellFormed) {blocks : List BlockId}
    (path : graph.Path id blocks other) (reached : id ∈ graph.reachable) {fact : PostdominatorFact}
    (known : facts.lookup id = some fact) (included : fact.lookup other ≠ none) :
    ∃ distance, fact.lookup other = some (some distance) ∧ distance < blocks.length := by
  induction path generalizing fact with
  | single id => exact ⟨0, settled.lookup_self reached known, Nat.one_pos⟩
  | @step id next other blocks edge rest ih =>
      by_cases isSelf : other = id
      · subst isSelf
        exact ⟨0, settled.lookup_self reached known, Nat.succ_pos _⟩
      · rcases Option.ne_none_iff_exists'.1 included with ⟨distance, found⟩
        have nextReached := wellFormed.mem_reachable_of_successor reached edge
        rcases Option.ne_none_iff_exists'.1 (settled.known next nextReached) with
          ⟨nextFact, nextKnown⟩
        rcases settled.exists_meetOver reached known isSelf found with ⟨met, metEq, metFound⟩
        have below := atMost_meetOver metEq edge nextKnown other
        rw [metFound] at below
        have nextIncluded : nextFact.lookup other ≠ none := by
          intro missing
          rw [missing] at below
          exact below
        rcases ih nextReached nextKnown nextIncluded with ⟨nextDistance, nextFound, shorter⟩
        rw [nextFound] at below
        rcases distance with _ | distance
        · exact below.elim
        · refine ⟨distance, found, ?_⟩
          have atMost : distance ≤ nextDistance + 1 := below
          rw [List.length_cons]
          omega

end Settled

/-! ### Every postdominator is listed once -/

/-- The blocks that a fact is about. -/
def keys (fact : PostdominatorFact) : List BlockId :=
  fact.map Prod.fst

theorem mem_keys_record {fact : PostdominatorFact} {distance : Option Nat} :
    other ∈ keys (record fact id distance) ↔ other = id ∨ other ∈ keys fact := by
  induction fact with
  | nil => simp [keys, record]
  | cons entry rest ih =>
      rcases entry with ⟨present, old⟩
      rw [keys] at ih
      by_cases isPresent : present = id
      · subst isPresent
        simp [keys, record]
      · simp only [keys, record, isPresent, if_false, List.map_cons, List.mem_cons, ih]
        tauto

theorem nodup_keys_record {fact : PostdominatorFact} (distinct : (keys fact).Nodup)
    (id : BlockId) (distance : Option Nat) : (keys (record fact id distance)).Nodup := by
  induction fact with
  | nil => exact List.nodup_singleton id
  | cons entry rest ih =>
      rcases entry with ⟨present, old⟩
      rw [keys, List.map_cons, List.nodup_cons] at distinct
      by_cases isPresent : present = id
      · subst isPresent
        simpa [keys, record] using distinct
      · have later : present ∉ keys (record rest id distance) := by
          rw [mem_keys_record]
          exact not_or.2 ⟨isPresent, distinct.1⟩
        rw [record, if_neg isPresent]
        exact List.nodup_cons.2 ⟨later, ih distinct.2⟩

theorem keys_behind (fact : PostdominatorFact) : keys fact.behind = keys fact := by
  simp [keys, behind, Function.comp_def]

theorem sublist_keys_meet (fact successor : PostdominatorFact) :
    List.Sublist (keys (fact.meet successor)) (keys fact) := by
  induction fact with
  | nil => exact List.Sublist.refl _
  | cons entry rest ih =>
      rcases entry with ⟨present, old⟩
      rw [meet] at ih
      cases found : successor.lookup present with
      | none =>
          simp only [keys, meet, List.filterMap_cons, found, Option.map_none]
          exact ih.cons present
      | some distance =>
          simp only [keys, meet, List.filterMap_cons, found, Option.map_some]
          exact ih.cons_cons present

/-- No fact lists a block twice. -/
def Keyed (facts : PostdominatorFacts) : Prop :=
  ∀ id, ∀ fact ∈ facts.lookup id, (keys fact).Nodup

theorem Keyed.meetOver (keyed : Keyed facts) {successors : List BlockId} {met : PostdominatorFact}
    (metEq : meetOver facts successors = some met) : (keys met).Nodup := by
  have step : ∀ {met? fact? : Option PostdominatorFact}, (∀ fact ∈ met?, (keys fact).Nodup) →
      (∀ fact ∈ fact?, (keys fact).Nodup) →
        ∀ met ∈ meetWith met? fact?, (keys met).Nodup := by
    intro met? fact? metDistinct factDistinct met metMem
    rcases fact? with _ | fact
    · exact metDistinct met metMem
    · rcases met? with _ | before
      · cases metMem
        rw [keys_behind]
        exact factDistinct fact rfl
      · cases metMem
        exact (metDistinct before rfl).sublist (sublist_keys_meet before fact)
  have fold : ∀ (successors : List BlockId) (met? : Option PostdominatorFact),
      (∀ fact ∈ met?, (keys fact).Nodup) → ∀ met ∈
        successors.foldl (fun met? successor => meetWith met? (facts.lookup successor)) met?,
          (keys met).Nodup := by
    intro successors
    induction successors with
    | nil => exact fun met? metDistinct => metDistinct
    | cons first rest ih =>
        intro met? metDistinct
        exact ih _ (step metDistinct (keyed first))
  exact fold successors none (fun _ absent => nomatch absent) met metEq

theorem Keyed.visit (keyed : Keyed facts) (graph : Graph) (visited : BlockId) :
    Keyed (visit graph facts visited) := by
  have updated : (keys (update graph facts visited)).Nodup := by
    rw [update]
    apply nodup_keys_record
    cases metEq : Postdominators.meetOver facts (graph.successors visited) with
    | none => exact List.nodup_nil
    | some met => exact keyed.meetOver metEq
  intro id fact factMem
  rw [Postdominators.visit] at factMem
  split at factMem
  · exact keyed id fact factMem
  · rw [lookup_replace] at factMem
    split at factMem
    · rcases Option.map_eq_some_iff.1 factMem with ⟨_, -, rfl⟩
      exact updated
    · exact keyed id fact factMem

theorem keyed_initial (graph : Graph) : Keyed (initial graph) := by
  intro id fact factMem
  rw [initial, lookup_map] at factMem
  split at factMem
  · cases factMem
    apply nodup_keys_record
    split
    · exact List.nodup_nil
    · have distinct : graph.reachable.Nodup := Search.nodup_reached _ _ _
      simpa [keys, Function.comp_def] using distinct
  · cases factMem

theorem lookup_eq_some_iff {fact : PostdominatorFact} (distinct : (keys fact).Nodup)
    {distance : Option Nat} : fact.lookup other = some distance ↔ (other, distance) ∈ fact := by
  refine ⟨mem_of_lookup_eq_some, ?_⟩
  intro entryMem
  induction fact with
  | nil => exact absurd entryMem List.not_mem_nil
  | cons entry rest ih =>
      rcases entry with ⟨present, old⟩
      rw [keys, List.map_cons, List.nodup_cons] at distinct
      rw [lookup_cons]
      rcases List.mem_cons.1 entryMem with isFirst | later
      · cases isFirst
        rw [if_pos rfl]
      · have isKey : other ∈ keys rest := List.mem_map.2 ⟨_, later, rfl⟩
        have differs : other ≠ present := by
          rintro rfl
          exact distinct.1 isKey
        rw [if_neg differs]
        exact ih distinct.2 later

/-! ### What the result says -/

/-- The postdominators of every reachable block are listed once, each with its distance. -/
structure Exact (graph : Graph) (postdominators : Postdominators) : Prop where
  nodup_keys : ∀ id ∈ graph.reachable, (keys (postdominators.of id)).Nodup
  postdominates_iff : ∀ id ∈ graph.reachable, ∀ other,
    postdominators.postdominates other id = true ↔ graph.Postdominates other id
  distance : ∀ id ∈ graph.reachable, ∀ other distance, (other, distance) ∈ postdominators.of id →
    ∃ edges, distance = some edges ∧ graph.Distance id other edges

/-- If control can end from every reachable block, the postdominators are found, with their
distances. -/
theorem exists_exact (wellFormed : graph.WellFormed)
    (canEnd : ∀ id ∈ graph.reachable, graph.CanEnd id) :
    ∃ postdominators, ofGraph graph = .ok postdominators ∧ Exact graph postdominators := by
  have entryReached := wellFormed.entry_mem_reachable
  have someExit : graph.exits.isEmpty = false := by
    rcases canEnd _ entryReached with ⟨blocks, exit, path, isLast⟩
    have exitReached := wellFormed.mem_reachable_iff.2 ⟨blocks, path⟩
    exact List.isEmpty_eq_false_iff.2 (List.ne_nil_of_mem (Graph.mem_exits.2 ⟨exitReached, isLast⟩))
  have descending := descending_initial graph
  have settled := settled_settle descending
  have complete : Complete graph (settle graph (initial graph) descending) :=
    settle_induction (fun _ descending _ isInner complete =>
      complete.visit wellFormed descending isInner) descending (complete_initial graph)
  have keyed : Keyed (settle graph (initial graph) descending) :=
    settle_induction (fun _ _ visited _ keyed => keyed.visit graph visited) descending
      (keyed_initial graph)
  generalize factsEq : settle graph (initial graph) descending = facts at settled complete keyed
  have ofEq : ∀ id ∈ graph.reachable, facts.lookup id = some (of ⟨facts⟩ id) := by
    intro id reached
    rcases Option.ne_none_iff_exists'.1 (settled.known id reached) with ⟨fact, known⟩
    rw [of, known, Option.getD_some]
  have included : ∀ id ∈ graph.reachable, ∀ other,
      Includes (facts.lookup id) other ↔ graph.Postdominates other id := by
    intro id reached other
    constructor
    · intro included blocks exit path isLast
      exact settled.mem_of_path wellFormed path isLast reached included
    · intro postdominates
      by_contra excluded
      rcases canEnd id reached with ⟨blocks, exit, path, isLast⟩
      have otherReached := wellFormed.mem_reachable_of_mem path reached
        (postdominates blocks exit path isLast)
      rcases complete id reached other otherReached excluded with
        ⟨blocks', exit', path', isLast', avoided⟩
      exact avoided (postdominates blocks' exit' path' isLast')
  refine ⟨⟨facts⟩, by simp [ofGraph, someExit, factsEq], ?_, ?_, ?_⟩
  · intro id reached
    exact keyed id _ (ofEq id reached)
  · intro id reached other
    rw [postdominates_iff_includes (settled.known id reached), included id reached]
  · intro id reached other distance entryMem
    have found := (lookup_eq_some_iff (keyed id _ (ofEq id reached))).2 entryMem
    have present : (of ⟨facts⟩ id).lookup other ≠ none := by
      rw [found]
      exact Option.some_ne_none _
    have postdominates : graph.Postdominates other id := by
      rw [← included id reached, ofEq id reached, includes_some]
      exact present
    have bounded : ∀ blocks, graph.Path id blocks other →
        ∃ edges, distance = some edges ∧ edges < blocks.length := by
      intro blocks path
      rcases settled.lt_length_of_path wellFormed path reached (ofEq id reached) present with
        ⟨edges, found', shorter⟩
      exact ⟨edges, Option.some.inj (found.symm.trans found'), shorter⟩
    rcases canEnd id reached with ⟨blocks, exit, path, isLast⟩
    rcases path.split_first (postdominates blocks exit path isLast) with
      ⟨before, after, rfl, -, toOther, -⟩
    rcases bounded _ toOther with ⟨edges, rfl, -⟩
    refine ⟨edges, rfl, settled.exists_path wellFormed reached (ofEq id reached) found, ?_⟩
    intro blocks path
    rcases bounded blocks path with ⟨edges', sameEdges, shorter⟩
    cases sameEdges
    exact shorter

/-! ### The nearest postdominator -/

/-- The nearer one of two facts, the earlier one if both are equally near. -/
def keepNearer (best? : Option (BlockId × Option Nat)) (fact : BlockId × Option Nat) :
    Option (BlockId × Option Nat) :=
  match best? with
  | none => some fact
  | some chosen => if nearer fact.2 chosen.2 then some fact else some chosen

theorem immediate?_eq (postdominators : Postdominators) (id : BlockId) :
    postdominators.immediate? id =
      ((((postdominators.of id).filter fun fact => fact.1 != id).foldl keepNearer none).map
        Prod.fst) :=
  rfl

theorem not_nearer_trans {first second third : Option Nat} (notNearer : nearer first second = false)
    (notNearer' : nearer second third = false) : nearer first third = false := by
  rcases first with _ | first <;> rcases second with _ | second <;> rcases third with _ | third <;>
    simp_all [nearer]
  omega

theorem not_nearer_of_nearer {left right : Option Nat} (isNearer : nearer left right = true) :
    nearer right left = false := by
  rcases left with _ | left <;> rcases right with _ | right <;> simp_all [nearer]
  omega

/-- Of some facts one is kept to which none is nearer. -/
theorem foldl_keepNearer (fact : BlockId × Option Nat) (rest : List (BlockId × Option Nat)) :
    ∃ chosen ∈ fact :: rest, rest.foldl keepNearer (some fact) = some chosen ∧
      ∀ other ∈ fact :: rest, nearer other.2 chosen.2 = false := by
  induction rest generalizing fact with
  | nil =>
      refine ⟨fact, List.mem_cons_self, rfl, ?_⟩
      intro other isFact
      rw [List.mem_singleton.1 isFact]
      rcases fact.2 with _ | distance <;> simp [nearer]
  | cons next rest ih =>
      rw [List.foldl_cons, keepNearer]
      by_cases isNearer : nearer next.2 fact.2 = true
      · rw [if_pos isNearer]
        rcases ih next with ⟨chosen, chosenMem, chosenEq, least⟩
        refine ⟨chosen, List.mem_cons_of_mem _ chosenMem, chosenEq, ?_⟩
        intro other otherMem
        rcases List.mem_cons.1 otherMem with rfl | later
        · exact not_nearer_trans (not_nearer_of_nearer isNearer) (least next List.mem_cons_self)
        · exact least other later
      · rw [if_neg isNearer]
        rcases ih fact with ⟨chosen, chosenMem, chosenEq, least⟩
        refine ⟨chosen, ?_, chosenEq, ?_⟩
        · rcases List.mem_cons.1 chosenMem with isFact | later
          · exact isFact ▸ List.mem_cons_self
          · exact List.mem_cons_of_mem _ (List.mem_cons_of_mem _ later)
        · intro other otherMem
          rcases List.mem_cons.1 otherMem with rfl | later
          · exact least other List.mem_cons_self
          · rcases List.mem_cons.1 later with rfl | later
            · exact not_nearer_trans (Bool.eq_false_iff.2 isNearer) (least fact List.mem_cons_self)
            · exact least other (List.mem_cons_of_mem _ later)

namespace Exact

variable {postdominators : Postdominators} (exact : Exact graph postdominators)

include exact

theorem mem_of_postdominates (reached : id ∈ graph.reachable)
    (postdominates : graph.Postdominates other id) :
    ∃ distance, (other, distance) ∈ postdominators.of id := by
  have listed := (exact.postdominates_iff id reached other).2 postdominates
  rcases List.any_eq_true.1 listed with ⟨⟨present, distance⟩, entryMem, isOther⟩
  rcases beq_iff_eq.1 isOther with rfl
  exact ⟨distance, entryMem⟩

theorem postdominates_of_mem (reached : id ∈ graph.reachable) {distance : Option Nat}
    (entryMem : (other, distance) ∈ postdominators.of id) : graph.Postdominates other id :=
  (exact.postdominates_iff id reached other).1
    (List.any_eq_true.2 ⟨_, entryMem, beq_self_eq_true _⟩)

/-- A block without a nearest postdominator has none but itself. -/
theorem immediate?_eq_none (reached : id ∈ graph.reachable) :
    postdominators.immediate? id = none ↔ ∀ other, graph.Postdominates other id → other = id := by
  rw [immediate?_eq, Option.map_eq_none_iff]
  constructor
  · intro nothing other postdominates
    by_contra differs
    rcases exact.mem_of_postdominates reached postdominates with ⟨distance, entryMem⟩
    have listed : (other, distance) ∈
        (postdominators.of id).filter fun fact => fact.1 != id := by
      simp [entryMem, differs]
    cases others : (postdominators.of id).filter fun fact => fact.1 != id with
    | nil =>
        rw [others] at listed
        exact List.not_mem_nil listed
    | cons first rest =>
        rw [others, List.foldl_cons] at nothing
        rcases foldl_keepNearer first rest with ⟨chosen, -, chosenEq, -⟩
        rw [keepNearer, chosenEq] at nothing
        cases nothing
  · intro alone
    have nothing : ((postdominators.of id).filter fun fact => fact.1 != id) = [] := by
      apply List.filter_eq_nil_iff.2
      rintro ⟨other, distance⟩ entryMem
      simp [alone other (exact.postdominates_of_mem reached entryMem)]
    rw [nothing, List.foldl_nil]

/-- The nearest postdominator of a block is another block, and all further ones postdominate it. -/
theorem of_immediate?_eq_some (reached : id ∈ graph.reachable) {nearest : BlockId}
    (found : postdominators.immediate? id = some nearest) :
    nearest ≠ id ∧ graph.Postdominates nearest id ∧
      ∀ other, other ≠ id → graph.Postdominates other id → graph.Postdominates other nearest := by
  rw [immediate?_eq] at found
  rcases Option.map_eq_some_iff.1 found with ⟨⟨chosenId, distance⟩, foldEq, isNearest⟩
  have isNearest : chosenId = nearest := isNearest
  subst isNearest
  have chosen : (chosenId, distance) ∈ (postdominators.of id).filter (fun fact => fact.1 != id) ∧
      ∀ fact ∈ (postdominators.of id).filter (fun fact => fact.1 != id),
        nearer fact.2 distance = false := by
    cases others : (postdominators.of id).filter fun fact => fact.1 != id with
    | nil =>
        rw [others] at foldEq
        cases foldEq
    | cons first rest =>
        rw [others, List.foldl_cons] at foldEq
        rcases foldl_keepNearer first rest with ⟨chosen, chosenMem, chosenEq, least⟩
        rw [keepNearer, chosenEq] at foldEq
        cases foldEq
        exact ⟨chosenMem, least⟩
  rcases chosen with ⟨chosenMem, least⟩
  rcases List.mem_filter.1 chosenMem with ⟨entryMem, differs⟩
  have postdominates := exact.postdominates_of_mem reached entryMem
  refine ⟨by simpa using differs, postdominates, ?_⟩
  intro other otherDiffers otherPostdominates
  rcases exact.mem_of_postdominates reached otherPostdominates with ⟨otherDistance, otherMem⟩
  rcases exact.distance id reached chosenId distance entryMem with ⟨edges, rfl, isDistance⟩
  rcases exact.distance id reached other otherDistance otherMem with
    ⟨otherEdges, rfl, isOtherDistance⟩
  have notNearer := least (other, some otherEdges) (by simp [otherMem, otherDiffers])
  have notLess : edges ≤ otherEdges := by simpa [nearer] using notNearer
  -- A shortest path to the nearest one has no other postdominator on it before its end.
  rcases isDistance.exists_path with ⟨blocks, path, lengthEq⟩
  rcases path.eq_append_target with ⟨before, rfl⟩
  by_cases isNearest : other = chosenId
  · exact isNearest ▸ .refl other
  · refine otherPostdominates.of_path path ?_
    intro isBefore
    rcases path.split_first (List.mem_append_left _ isBefore) with
      ⟨earlier, after, beforeEq, -, toOther, fromOther⟩
    have shorter := isOtherDistance.le_length _ toOther
    have sameLength := congrArg List.length beforeEq
    have someAfter : after ≠ [] := by
      rintro rfl
      cases fromOther with
      | single => exact isNearest rfl
      | step _ rest => cases rest
    have positive := List.length_pos_iff.2 someAfter
    simp only [List.length_append, List.length_cons, List.length_nil] at lengthEq shorter sameLength
    omega

end Exact

end Postdominators

end FlowAnalysis
