import FlowAnalysis.ControlFlow.Postdominance.Fact
import FlowAnalysis.Settings

/-!
# Postdominance

A block postdominates another if control cannot end without passing through it. At first every block
is taken to postdominate every block at which control does not end. Sweeps over those blocks then
keep for each of them what postdominates all its successors, and itself. A sweep reads what it has
already changed; sweeps are repeated until one of them changes nothing. The distances that are
recorded on the way only rank the postdominators of a block.

That the sweeps come to an end is part of the definition: no visit raises a distance, because the
facts always lie above what the next visit makes of them.
-/

namespace FlowAnalysis

/-- The postdominators of some blocks. -/
abbrev PostdominatorFacts := List (BlockId × PostdominatorFact)

/-- The postdominators of the reachable blocks with their distances. -/
structure Postdominators where
  facts : PostdominatorFacts

namespace Postdominators

open PostdominatorFact

/-- The facts before the first sweep. -/
def initial (graph : Graph) : PostdominatorFacts :=
  graph.reachable.map fun id =>
    (id, record (if id ∈ graph.exits then [] else graph.reachable.map fun other => (other, none)) id
      (some 0))

/-- What postdominates a further successor too; nothing is known about a block without facts. -/
def meetWith (met? : Option PostdominatorFact) : Option PostdominatorFact → Option PostdominatorFact
  | none => met?
  | some fact =>
      match met? with
      | none => some fact.behind
      | some met => some (met.meet fact)

/-- What postdominates all of some blocks, one block further away. -/
def meetOver (facts : PostdominatorFacts) (successors : List BlockId) : Option PostdominatorFact :=
  successors.foldl (fun met? successor => meetWith met? (facts.lookup successor)) none

/-- The postdominators of a block as those of its successors give them. -/
def update (graph : Graph) (facts : PostdominatorFacts) (id : BlockId) : PostdominatorFact :=
  record ((meetOver facts (graph.successors id)).getD []) id (some 0)

/-- Replaces the postdominators of a block. -/
def replace (facts : PostdominatorFacts) (id : BlockId) (next : PostdominatorFact) :
    PostdominatorFacts :=
  facts.map fun entry => if entry.1 = id then (id, next) else entry

/-- Brings the postdominators of a block up to date, unless they stay the same. -/
def visit (graph : Graph) (facts : PostdominatorFacts) (id : BlockId) : PostdominatorFacts :=
  let next := update graph facts id
  if (facts.lookup id).any next.same then facts else replace facts id next

/-- The reachable blocks at which control does not end. -/
def inner (graph : Graph) : List BlockId :=
  graph.reachable.filter fun id => id ∉ graph.exits

/-- Visits the blocks at which control does not end, one after the other. -/
def sweep (graph : Graph) (facts : PostdominatorFacts) : PostdominatorFacts :=
  (inner graph).foldl (visit graph) facts

/-! ### Sweeps come to an end -/

/-- A fact that may be missing is below another one if neither or both are there. -/
def BelowOption : Option PostdominatorFact → Option PostdominatorFact → Prop
  | none, none => True
  | some left, some right => Below left right
  | _, _ => False

/-- Every block has facts below those that it has otherwise. -/
def FactsBelow (left right : PostdominatorFacts) : Prop :=
  ∀ id, BelowOption (left.lookup id) (right.lookup id)

/-- All reachable blocks have facts, which lie above what a visit makes of them and are about
reachable blocks. -/
structure Descending (graph : Graph) (facts : PostdominatorFacts) : Prop where
  known : ∀ id ∈ graph.reachable, facts.lookup id ≠ none
  update_below : ∀ id ∈ inner graph, ∀ fact ∈ facts.lookup id, Below (update graph facts id) fact
  reachable : ∀ id, ∀ fact ∈ facts.lookup id, ∀ other, fact.lookup other ≠ none →
    other ∈ graph.reachable

variable {graph : Graph} {facts facts' : PostdominatorFacts}

theorem BelowOption.refl : (fact? : Option PostdominatorFact) → BelowOption fact? fact?
  | none => trivial
  | some fact => Below.refl fact

theorem lookup_replace (id sought : BlockId) (next : PostdominatorFact) :
    (replace facts id next).lookup sought =
      if sought = id then (facts.lookup sought).map fun _ => next else facts.lookup sought := by
  induction facts with
  | nil => simp [replace]
  | cons entry rest ih =>
      rcases entry with ⟨present, fact⟩
      rw [replace] at ih ⊢
      by_cases isPresent : present = id
      · subst isPresent
        by_cases found : sought = present
        · simp [found]
        · have differs : (sought == present) = false := beq_false_of_ne found
          simp [List.lookup_cons, differs, found, ih]
      · by_cases found : sought = present
        · subst found
          simp [isPresent]
        · have differs : (sought == present) = false := beq_false_of_ne found
          simp [List.lookup_cons, differs, isPresent, ih]

theorem BelowOption.meetWith {left left' right right' : Option PostdominatorFact}
    (below : BelowOption left left') (below' : BelowOption right right') :
    BelowOption (meetWith left right) (meetWith left' right') := by
  rcases right with _ | right <;> rcases right' with _ | right'
  · exact below
  · exact below'.elim
  · exact below'.elim
  · rcases left with _ | left <;> rcases left' with _ | left'
    · exact Below.behind below'
    · exact below.elim
    · exact below.elim
    · exact Below.meet below below'

theorem FactsBelow.meetOver (below : FactsBelow facts facts') (successors : List BlockId) :
    BelowOption (meetOver facts successors) (meetOver facts' successors) := by
  have fold : ∀ {met? met?' : Option PostdominatorFact}, BelowOption met? met?' →
      BelowOption
        (successors.foldl (fun met? successor => meetWith met? (facts.lookup successor)) met?)
        (successors.foldl (fun met? successor => meetWith met? (facts'.lookup successor)) met?') := by
    induction successors with
    | nil => exact id
    | cons successor rest ih => exact fun metBelow => ih (metBelow.meetWith (below successor))
  exact fold trivial

/-- Visits are monotone. -/
theorem FactsBelow.update (below : FactsBelow facts facts') (graph : Graph) (id : BlockId) :
    Below (update graph facts id) (update graph facts' id) := by
  have met := below.meetOver (graph.successors id)
  rw [Postdominators.update, Postdominators.update]
  refine Below.record ?_ id (some 0)
  cases metEq : Postdominators.meetOver facts (graph.successors id) <;>
    cases metEq' : Postdominators.meetOver facts' (graph.successors id) <;>
    rw [metEq, metEq'] at met
  · exact Below.refl _
  · exact met.elim
  · exact met.elim
  · exact met

theorem Descending.factsBelow_visit (descending : Descending graph facts) {id : BlockId}
    (isInner : id ∈ inner graph) : FactsBelow (visit graph facts id) facts := by
  intro other
  rw [visit]
  split
  · exact .refl _
  · rw [lookup_replace]
    split
    · next isOther =>
        subst isOther
        cases factEq : facts.lookup other with
        | none => trivial
        | some fact => exact descending.update_below other isInner fact factEq
    · exact .refl _

theorem Descending.visit (descending : Descending graph facts) {id : BlockId}
    (isInner : id ∈ inner graph) : Descending graph (visit graph facts id) := by
  have below := descending.factsBelow_visit isInner
  refine ⟨?_, ?_, ?_⟩
  · intro other isReachable missing
    have fallen := below other
    rw [missing] at fallen
    cases factEq : facts.lookup other with
    | none => exact descending.known other isReachable factEq
    | some fact =>
        rw [factEq] at fallen
        exact fallen
  · intro other otherInner fact factMem
    refine (below.update graph other).trans ?_
    rw [Postdominators.visit] at factMem
    split at factMem
    · exact descending.update_below other otherInner fact factMem
    · rw [lookup_replace] at factMem
      split at factMem
      · next isOther =>
          subst isOther
          rcases Option.map_eq_some_iff.1 factMem with ⟨_, -, rfl⟩
          exact Below.refl _
      · exact descending.update_below other otherInner fact factMem
  · intro other fact factMem sought present
    have fallen := below other
    rw [Option.mem_def.1 factMem] at fallen
    cases factEq : facts.lookup other with
    | none =>
        rw [factEq] at fallen
        exact fallen.elim
    | some fact' =>
        rw [factEq] at fallen
        exact descending.reachable other fact' factEq sought ((fallen sought).ne_none present)

/-- The distance that some facts give to a block for another one. -/
def distance? (facts : PostdominatorFacts) (pair : BlockId × BlockId) : Option (Option Nat) :=
  (facts.lookup pair.1).bind fun fact => fact.lookup pair.2

/-- The pairs of reachable blocks. -/
def pairs (graph : Graph) : List (BlockId × BlockId) :=
  graph.reachable.flatMap fun id => graph.reachable.map fun other => (id, other)

/-- How much the facts may still fall. -/
def height (graph : Graph) (facts : PostdominatorFacts) : Nat × Nat :=
  weight ((pairs graph).map (distance? facts))

theorem FactsBelow.distance? (below : FactsBelow facts facts') (pair : BlockId × BlockId) :
    AtMost (distance? facts pair) (distance? facts' pair) := by
  have fallen := below pair.1
  rw [Postdominators.distance?, Postdominators.distance?]
  cases factEq : facts.lookup pair.1 <;> cases factEq' : facts'.lookup pair.1 <;>
    rw [factEq, factEq'] at fallen
  · trivial
  · exact fallen.elim
  · exact fallen.elim
  · exact fallen pair.2

theorem mem_inner {id : BlockId} : id ∈ inner graph ↔ id ∈ graph.reachable ∧ id ∉ graph.exits := by
  simp [inner]

/-- A visit that changes anything lowers the facts. -/
theorem Descending.visit_eq_or_height_lt (descending : Descending graph facts) {id : BlockId}
    (isInner : id ∈ inner graph) :
    Postdominators.visit graph facts id = facts ∨
      Prod.Lex (· < ·) (· < ·) (height graph (Postdominators.visit graph facts id))
        (height graph facts) := by
  have isReachable := (mem_inner.1 isInner).1
  rw [Postdominators.visit]
  split
  · exact .inl rfl
  · next changed =>
      right
      have below := descending.factsBelow_visit isInner
      rw [Postdominators.visit, if_neg changed] at below
      generalize nextEq : Postdominators.update graph facts id = next at changed below ⊢
      cases factEq : facts.lookup id with
      | none => exact absurd factEq (descending.known id isReachable)
      | some fact =>
          have differs : ¬∀ other, next.lookup other = fact.lookup other := by
            rw [← same_iff]
            simpa [factEq] using changed
          rcases Classical.not_forall.1 differs with ⟨other, differs⟩
          have nextLookup : (replace facts id next).lookup id = some next := by
            simp [lookup_replace, factEq]
          have fallen := below id
          rw [nextLookup, factEq] at fallen
          have present : fact.lookup other ≠ none := by
            intro missing
            have atMost := fallen other
            rw [missing] at atMost differs
            cases found : next.lookup other with
            | none => exact differs found
            | some _ =>
                rw [found] at atMost
                exact atMost
          have otherReachable := descending.reachable id fact factEq other present
          have pairMem : (id, other) ∈ pairs graph :=
            List.mem_flatMap.2 ⟨id, isReachable, List.mem_map.2 ⟨other, otherReachable, rfl⟩⟩
          have lowered : (pairs graph).map (Postdominators.distance? (replace facts id next)) ≠
              (pairs graph).map (Postdominators.distance? facts) := by
            intro unchanged
            have atPair := List.map_inj_left.1 unchanged (id, other) pairMem
            simp only [Postdominators.distance?, nextLookup, factEq, Option.bind_some] at atPair
            exact differs atPair
          rcases weight_le fun pair (_ : pair ∈ pairs graph) => below.distance? pair with
            ⟨infinite, finite⟩
          rw [Prod.lex_def]
          rcases Nat.lt_or_eq_of_le infinite with fewer | asMany
          · exact .inl fewer
          · exact .inr ⟨asMany, (finite asMany).2 lowered⟩

/-- Visits that change anything lower the facts, and they keep them descending. -/
theorem Descending.visits {ids : List BlockId} (areInner : ids ⊆ inner graph)
    (descending : Descending graph facts) :
    Descending graph (ids.foldl (Postdominators.visit graph) facts) ∧
      (ids.foldl (Postdominators.visit graph) facts = facts ∨
        Prod.Lex (· < ·) (· < ·) (height graph (ids.foldl (Postdominators.visit graph) facts))
          (height graph facts)) := by
  induction ids generalizing facts with
  | nil => exact ⟨descending, .inl rfl⟩
  | cons id rest ih =>
      have isInner := areInner List.mem_cons_self
      rcases ih (List.subset_of_cons_subset areInner) (descending.visit isInner) with
        ⟨restDescending, restLowers⟩
      refine ⟨restDescending, ?_⟩
      rw [List.foldl_cons]
      rcases descending.visit_eq_or_height_lt isInner with unchanged | lowers
      · rw [unchanged] at restLowers ⊢
        exact restLowers
      · right
        rcases restLowers with unchanged | lowersMore
        · rw [unchanged]
          exact lowers
        · rw [Prod.lex_def] at lowers lowersMore ⊢
          omega

theorem Descending.sweep (descending : Descending graph facts) :
    Descending graph (sweep graph facts) :=
  (descending.visits (List.Subset.refl _)).1

theorem Descending.sweep_eq_or_height_lt (descending : Descending graph facts) :
    Postdominators.sweep graph facts = facts ∨
      Prod.Lex (· < ·) (· < ·) (height graph (Postdominators.sweep graph facts))
        (height graph facts) :=
  (descending.visits (List.Subset.refl _)).2

theorem lookup_map {Value : Type} (ids : List BlockId) (value : BlockId → Value) (sought : BlockId) :
    (ids.map fun id => (id, value id)).lookup sought =
      if sought ∈ ids then some (value sought) else none := by
  induction ids with
  | nil => rfl
  | cons id rest ih =>
      by_cases found : sought = id
      · subst found
        simp
      · have differs : (sought == id) = false := beq_false_of_ne found
        simp [List.lookup_cons, differs, found, ih]

theorem lookup_initial (graph : Graph) (id other : BlockId) :
    ((initial graph).lookup id).bind (fun fact => fact.lookup other) =
      if id ∉ graph.reachable then none
      else if other = id then some (some 0)
      else if id ∈ graph.exits ∨ other ∉ graph.reachable then none
      else some none := by
  rw [initial, lookup_map]
  by_cases isReachable : id ∈ graph.reachable
  · by_cases isExit : id ∈ graph.exits
    · simp [isReachable, isExit]
    · simp [isReachable, isExit, lookup_map]
  · simp [isReachable]

/-- A block is in a fact unless the fact is missing. -/
def Includes (fact? : Option PostdominatorFact) (other : BlockId) : Prop :=
  ∀ fact ∈ fact?, fact.lookup other ≠ none

theorem includes_some {fact : PostdominatorFact} {other : BlockId} :
    Includes (some fact) other ↔ fact.lookup other ≠ none := by
  constructor
  · exact fun included => included fact rfl
  · rintro included _ ⟨⟩
    exact included

theorem includes_none (other : BlockId) : Includes none other :=
  fun _ absent => nomatch absent

theorem includes_meetWith {left right : Option PostdominatorFact} {other : BlockId} :
    Includes (meetWith left right) other ↔ Includes left other ∧ Includes right other := by
  rcases right with _ | right
  · rw [and_iff_left (includes_none other), meetWith]
  · rcases left with _ | left
    · rw [and_iff_right (includes_none other), meetWith, includes_some, includes_some,
        lookup_behind, ne_eq, Option.map_eq_none_iff]
    · rw [meetWith, includes_some, includes_some, includes_some, lookup_meet_ne_none]

theorem includes_meetOver {successors : List BlockId} {other : BlockId} :
    Includes (meetOver facts successors) other ↔
      ∀ successor ∈ successors, Includes (facts.lookup successor) other := by
  have fold : ∀ met? : Option PostdominatorFact,
      Includes (successors.foldl (fun met? successor => meetWith met? (facts.lookup successor)) met?)
          other ↔
        Includes met? other ∧
          ∀ successor ∈ successors, Includes (facts.lookup successor) other := by
    induction successors with
    | nil => simp
    | cons successor rest ih =>
        intro met?
        rw [List.foldl_cons, ih, includes_meetWith, List.forall_mem_cons, and_assoc]
  exact (fold none).trans (and_iff_right (includes_none other))

theorem meetOver_eq_none {successors : List BlockId} :
    meetOver facts successors = none ↔
      ∀ successor ∈ successors, facts.lookup successor = none := by
  have step : ∀ left right : Option PostdominatorFact,
      meetWith left right = none ↔ left = none ∧ right = none := by
    rintro (_ | left) (_ | right) <;> simp [meetWith]
  have fold : ∀ met? : Option PostdominatorFact,
      successors.foldl (fun met? successor => meetWith met? (facts.lookup successor)) met? = none ↔
        met? = none ∧ ∀ successor ∈ successors, facts.lookup successor = none := by
    induction successors with
    | nil => simp
    | cons successor rest ih =>
        intro met?
        rw [List.foldl_cons, ih, step, List.forall_mem_cons, and_assoc]
  exact (fold none).trans (and_iff_right rfl)

/-- A visit finds the block itself, and whatever postdominates all successors that have facts if
there are any. -/
theorem lookup_update_ne_none {id other : BlockId} :
    (update graph facts id).lookup other ≠ none ↔
      other = id ∨
        (∃ successor ∈ graph.successors id, facts.lookup successor ≠ none) ∧
          ∀ successor ∈ graph.successors id, Includes (facts.lookup successor) other := by
  rw [update, lookup_record]
  by_cases isSelf : other = id
  · simp [isSelf]
  · cases metEq : meetOver facts (graph.successors id) with
    | none =>
        have missing := meetOver_eq_none.1 metEq
        simp only [isSelf, if_false, Option.getD_none, List.lookup_nil, ne_eq, not_true, false_or,
          false_iff]
        rintro ⟨⟨successor, isSuccessor, present⟩, -⟩
        exact present (missing successor isSuccessor)
    | some met =>
        have present : ∃ successor ∈ graph.successors id, facts.lookup successor ≠ none := by
          apply Classical.byContradiction
          intro absent
          have missing : meetOver facts (graph.successors id) = none := by
            rw [meetOver_eq_none]
            intro successor isSuccessor
            exact Classical.byContradiction fun found => absent ⟨successor, isSuccessor, found⟩
          rw [metEq] at missing
          nomatch missing
        rw [if_neg isSelf, Option.getD_some, ← includes_some, ← metEq, includes_meetOver,
          or_iff_right isSelf, and_iff_right present]

theorem descending_initial (graph : Graph) : Descending graph (initial graph) := by
  have reachable : ∀ id, ∀ fact ∈ (initial graph).lookup id, ∀ other, fact.lookup other ≠ none →
      other ∈ graph.reachable := by
    intro id fact factMem other present
    have distance := lookup_initial graph id other
    rw [Option.mem_def.1 factMem, Option.bind_some] at distance
    rw [distance] at present
    grind
  refine ⟨?_, ?_, reachable⟩
  · intro id isReachable
    simp [initial, lookup_map, isReachable]
  · intro id isInner fact factMem other
    rcases mem_inner.1 isInner with ⟨isReachable, notExit⟩
    have distance := lookup_initial graph id other
    rw [Option.mem_def.1 factMem, Option.bind_some] at distance
    rw [distance, update, lookup_record]
    by_cases isSelf : other = id
    · simp [isReachable, isSelf, AtMost]
    · cases found : ((meetOver (initial graph) (graph.successors id)).getD []).lookup other with
      | none => simp [isSelf, AtMost]
      | some found' =>
          have updated : (update graph (initial graph) id).lookup other ≠ none := by
            simp [update, isSelf, found]
          rcases (lookup_update_ne_none.1 updated).resolve_left isSelf with
            ⟨⟨successor, isSuccessor, present⟩, included⟩
          rcases Option.ne_none_iff_exists'.1 present with ⟨successorFact, successorEq⟩
          have otherReachable := reachable successor successorFact successorEq other
            (included successor isSuccessor successorFact successorEq)
          simp [isReachable, notExit, isSelf, otherReachable, AtMost]

/-! ### The result -/

/-- Sweeps until nothing changes. -/
def settle (graph : Graph) (facts : PostdominatorFacts) (descending : Descending graph facts) :
    PostdominatorFacts :=
  if Postdominators.sweep graph facts = facts then facts
  else settle graph (Postdominators.sweep graph facts) descending.sweep
termination_by height graph facts
decreasing_by exact descending.sweep_eq_or_height_lt.resolve_left (by assumption)

/-- Finds the postdominators of a graph, which must have a reachable exit. -/
def ofGraph (graph : Graph) : Except Failure Postdominators :=
  if graph.exits.isEmpty then .error .noExitBlock
  else .ok { facts := settle graph (initial graph) (descending_initial graph) }

/-- The postdominators of a block, itself at distance zero among them; a distance is missing if it
is infinite. -/
def of (postdominators : Postdominators) (id : BlockId) : PostdominatorFact :=
  (postdominators.facts.lookup id).getD []

/-- Whether control that has reached a block cannot end without passing through the first one. -/
def postdominates (postdominators : Postdominators) (postdominator id : BlockId) : Bool :=
  (postdominators.of id).any fun fact => fact.1 == postdominator

/-- The nearest postdominator of a block other than itself. -/
def immediate? (postdominators : Postdominators) (id : BlockId) : Option BlockId :=
  let others := (postdominators.of id).filter fun fact => fact.1 != id
  (others.foldl
    (fun (best : Option (BlockId × Option Nat)) fact =>
      match best with
      | none => some fact
      | some chosen => if nearer fact.2 chosen.2 then some fact else some chosen)
    none).map Prod.fst

end Postdominators

end FlowAnalysis
