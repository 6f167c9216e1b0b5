import FlowAnalysis.Analysis.Result
import FlowAnalysis.Proofs.Search
import Mathlib.Data.List.Nodup
import Mathlib.Tactic.Tauto

/-!
# The finishing order of a depth-first search

A vertex that is seen and not yet finished leads to everything that is finished meanwhile. So an
edge that leads to a vertex finished later leads back over everything finished in between. Hence of
two groups of vertices that reach each other, the one that an edge leads to from the other is the
first to be finished completely, and groups in the order of their last members, from the last one to
the first, are in topological order.
-/

namespace FlowAnalysis

namespace Search

variable {Vertex : Type} {step : Vertex → List Vertex} {seen finished later : List Vertex}
  {vertex source target : Vertex}

/-- Steps lead from one vertex to another one, or both are the same. -/
abbrev Reaches (step : Vertex → List Vertex) : Vertex → Vertex → Prop :=
  Relation.ReflTransGen (Steps step)

/-- One vertex stands before another one. -/
def Before (finished : List Vertex) (left right : Vertex) : Prop :=
  ∃ i j : Nat, i < j ∧ finished[i]? = some left ∧ finished[j]? = some right

/-- What a search finishes, in order, once some vertices have been seen. -/
structure Finishes (step : Vertex → List Vertex) (seen finished : List Vertex) : Prop where
  nodup : finished.Nodup
  fresh : ∀ vertex ∈ finished, vertex ∉ seen
  closed : ∀ source ∈ finished, ∀ target ∈ step source, target ∈ seen ∨ target ∈ finished
  nested : ∀ {i j k : Nat} {source target between : Vertex}, finished[i]? = some source →
    finished[j]? = some target → finished[k]? = some between → i ≤ k → k ≤ j →
    target ∈ step source → Reaches step target between

namespace Finishes

theorem nil : Finishes step seen [] where
  nodup := List.nodup_nil
  fresh := by simp
  closed := by simp
  nested := by simp

/-- What is finished first does not lead to what is finished afterwards. -/
theorem append (first : Finishes step seen finished) {seen' : List Vertex}
    (seenAfter : ∀ vertex, vertex ∈ seen' ↔ vertex ∈ seen ∨ vertex ∈ finished)
    (second : Finishes step seen' later) : Finishes step seen (finished ++ later) where
  nodup := by
    refine List.Nodup.append first.nodup second.nodup ?_
    intro vertex isFinished isLater
    apply second.fresh vertex isLater
    exact (seenAfter vertex).2 (.inr isFinished)
  fresh := by
    intro vertex isMember
    rcases List.mem_append.1 isMember with isFinished | isLater
    · exact first.fresh vertex isFinished
    · intro isSeen
      apply second.fresh vertex isLater
      exact (seenAfter vertex).2 (.inl isSeen)
  closed := by
    intro source isMember target isTarget
    rcases List.mem_append.1 isMember with isFinished | isLater
    · exact (first.closed source isFinished target isTarget).imp_right (List.mem_append_left _)
    · rcases second.closed source isLater target isTarget with isSeen | isLater
      · exact ((seenAfter target).1 isSeen).imp_right (List.mem_append_left _)
      · exact .inr (List.mem_append_right _ isLater)
  nested := by
    intro i j k source target between atI atJ atK lower upper isTarget
    by_cases early : j < finished.length
    · rw [List.getElem?_append_left (by omega)] at atI atJ atK
      exact first.nested atI atJ atK lower upper isTarget
    · rw [List.getElem?_append_right (by omega)] at atJ
      by_cases crosses : i < finished.length
      · rw [List.getElem?_append_left crosses] at atI
        have isLater := List.mem_of_getElem? atJ
        have settled := first.closed source (List.mem_of_getElem? atI) target isTarget
        exact absurd ((seenAfter target).2 settled) (second.fresh target isLater)
      · rw [List.getElem?_append_right (by omega)] at atI atK
        exact second.nested atI atJ atK (by omega) (by omega) isTarget

/-- A vertex is finished after everything that it leads to. -/
theorem close (inner : Finishes step (vertex :: seen) finished) (unseen : vertex ∉ seen)
    (settled : ∀ target ∈ step vertex, target = vertex ∨ target ∈ seen ∨ target ∈ finished)
    (reaches : ∀ other ∈ finished, Reaches step vertex other) :
    Finishes step seen (finished ++ [vertex]) where
  nodup := by
    refine List.Nodup.append inner.nodup (List.nodup_singleton vertex) ?_
    intro other isFinished isVertex
    apply inner.fresh other isFinished
    simp [List.mem_singleton.1 isVertex]
  fresh := by
    intro other isMember
    rcases List.mem_append.1 isMember with isFinished | isVertex
    · intro isSeen
      exact inner.fresh other isFinished (List.mem_cons_of_mem _ isSeen)
    · rwa [List.mem_singleton.1 isVertex]
  closed := by
    intro source isMember target isTarget
    rcases List.mem_append.1 isMember with isFinished | isVertex
    · have := inner.closed source isFinished target isTarget
      simp only [List.mem_cons, List.mem_append, List.not_mem_nil, or_false] at this ⊢
      tauto
    · rw [List.mem_singleton.1 isVertex] at isTarget
      have := settled target isTarget
      simp only [List.mem_cons, List.mem_append, List.not_mem_nil, or_false]
      tauto
  nested := by
    intro i j k source target between atI atJ atK lower upper isTarget
    by_cases early : j < finished.length
    · rw [List.getElem?_append_left (by omega)] at atI atJ atK
      exact inner.nested atI atJ atK lower upper isTarget
    · -- The edge leads to the vertex that was being visited all the time.
      have isLast : vertex = target := by
        rw [List.getElem?_append_right (by omega), List.getElem?_singleton] at atJ
        split at atJ
        · exact Option.some.inj atJ
        · cases atJ
      rcases List.mem_append.1 (List.mem_of_getElem? atK) with isFinished | isVertex
      · exact isLast ▸ reaches between isFinished
      · rw [List.mem_singleton.1 isVertex, isLast]

/-! ### Order of vertices that do not reach each other -/

/-- On the way to a vertex finished later, some edge leads from one finished no later than a given
one to one finished after that. -/
theorem exists_crossing (finishes : Finishes step [] finished) {i j : Nat} {start stop : Vertex}
    (reaches : Reaches step start stop) (atJ : finished[j]? = some stop) (isLater : i < j) :
    ∀ k, finished[k]? = some start → k ≤ i → ∃ k' l source target, finished[k']? = some source ∧
      finished[l]? = some target ∧ k' ≤ i ∧ i < l ∧ target ∈ step source ∧
      Reaches step start source := by
  induction reaches using Relation.ReflTransGen.head_induction_on with
  | refl =>
      intro k atK small
      have inside := (List.getElem?_eq_some_iff.1 atK).1
      have same := (List.getElem?_inj inside finishes.nodup).1 (atK.trans atJ.symm)
      omega
  | @head source next edge _ ih =>
      intro k atK small
      have isFinished : next ∈ finished :=
        (finishes.closed source (List.mem_of_getElem? atK) next edge).resolve_left
          List.not_mem_nil
      rcases List.mem_iff_getElem?.1 isFinished with ⟨l, atL⟩
      by_cases crosses : i < l
      · exact ⟨k, l, source, next, atK, atL, small, crosses, edge, .refl⟩
      · rcases ih l atL (by omega) with ⟨k', l', source', target', atK', atL', small', large, edge',
          reaches'⟩
        exact ⟨k', l', source', target', atK', atL', small', large, edge', .head edge reaches'⟩

/-- If a vertex reaches another one and not the other way round, some vertex that it reaches and is
reached from is finished after the other one. -/
theorem exists_before (finishes : Finishes step [] finished) (isFinished : source ∈ finished)
    (isFinished' : target ∈ finished) (reaches : Reaches step source target)
    (oneWay : ¬Reaches step target source) :
    ∃ last, Reaches step source last ∧ Reaches step last source ∧ Before finished target last := by
  rcases List.mem_iff_getElem?.1 isFinished with ⟨i, atI⟩
  rcases List.mem_iff_getElem?.1 isFinished' with ⟨j, atJ⟩
  -- Crossing edges lead to ever later members of the group until the target is passed.
  have search : ∀ gap i other, j - i ≤ gap → finished[i]? = some other → Reaches step source other →
      Reaches step other source →
      ∃ last, Reaches step source last ∧ Reaches step last source ∧ Before finished target last := by
    intro gap
    induction gap with
    | zero =>
        intro i other small atI toOther fromOther
        by_cases same : i = j
        · rw [same, atJ] at atI
          rw [← Option.some.inj atI] at fromOther
          exact absurd fromOther oneWay
        · exact ⟨other, toOther, fromOther, j, i, by omega, atJ, atI⟩
    | succ gap ih =>
        intro i other small atI toOther fromOther
        by_cases isLater : i < j
        · have onward := fromOther.trans reaches
          rcases finishes.exists_crossing onward atJ isLater i atI (Nat.le_refl i) with
            ⟨k, l, crossing, next, atK, atL, lower, upper, edge, toCrossing⟩
          have back := finishes.nested atK atL atI lower (by omega) edge
          exact ih l next (by omega) atL ((toOther.trans toCrossing).tail edge)
            (back.trans fromOther)
        · exact ih i other (by omega) atI toOther fromOther
  exact search (j - i) i source (Nat.le_refl _) atI .refl .refl

end Finishes

/-! ### Groups -/

/-- Two vertices reach each other. -/
def Mutual (step : Vertex → List Vertex) (left right : Vertex) : Prop :=
  Reaches step left right ∧ Reaches step right left

theorem Mutual.symm {left right : Vertex} (both : Mutual step left right) :
    Mutual step right left :=
  ⟨both.2, both.1⟩

theorem Mutual.trans {left middle right : Vertex} (both : Mutual step left middle)
    (both' : Mutual step middle right) : Mutual step left right :=
  ⟨both.1.trans both'.1, both'.2.trans both.2⟩

/-- The groups of the vertices from some point of a finishing order on, the last one first. -/
structure Grouped (step : Vertex → List Vertex) (finished rest : List Vertex)
    (groups : List (List Vertex)) : Prop where
  covers : ∀ vertex ∈ rest, ∃ group ∈ groups, vertex ∈ group
  members : ∀ group ∈ groups, ∃ vertex ∈ rest,
    ∀ other, other ∈ group ↔ other ∈ finished ∧ Mutual step vertex other
  sublist : ∀ group ∈ groups, group.Sublist finished
  ordered : groups.Pairwise fun first second =>
    ∃ last ∈ first, ∀ other ∈ second, Before finished other last

namespace Grouped

variable {groups : List (List Vertex)} {rest : List Vertex}

theorem mutual_of_mem (grouped : Grouped step finished rest groups) {group : List Vertex}
    (isGroup : group ∈ groups) {left right : Vertex} (inGroup : left ∈ group)
    (inGroup' : right ∈ group) : Mutual step left right := by
  rcases grouped.members group isGroup with ⟨vertex, -, members⟩
  exact ((members left).1 inGroup).2.symm.trans ((members right).1 inGroup').2

/-- A vertex that is in none of the groups yet stands before those whose groups have been found. -/
theorem snoc {front : List Vertex} (split : finished = front ++ vertex :: rest)
    (grouped : Grouped step finished rest groups) (isNew : ∀ group ∈ groups, vertex ∉ group)
    {component : List Vertex} (sublist : component.Sublist finished)
    (members : ∀ other, other ∈ component ↔ other ∈ finished ∧ Mutual step vertex other) :
    Grouped step finished (vertex :: rest) (groups ++ [component]) where
  covers := by
    intro other isMember
    rcases List.mem_cons.1 isMember with rfl | isRest
    · exact ⟨component, by simp, (members other).2 ⟨by simp [split], .refl, .refl⟩⟩
    · rcases grouped.covers other isRest with ⟨group, isGroup, inGroup⟩
      exact ⟨group, List.mem_append_left _ isGroup, inGroup⟩
  members := by
    intro group isMember
    rcases List.mem_append.1 isMember with isGroup | isComponent
    · rcases grouped.members group isGroup with ⟨other, isRest, members⟩
      exact ⟨other, List.mem_cons_of_mem _ isRest, members⟩
    · rw [List.mem_singleton.1 isComponent]
      exact ⟨vertex, by simp, members⟩
  sublist := by
    intro group isMember
    rcases List.mem_append.1 isMember with isGroup | isComponent
    · exact grouped.sublist group isGroup
    · rwa [List.mem_singleton.1 isComponent]
  ordered := by
    rw [List.pairwise_append]
    refine ⟨grouped.ordered, List.pairwise_singleton _ _, ?_⟩
    intro group isGroup component' isComponent
    rw [List.mem_singleton.1 isComponent]
    rcases grouped.members group isGroup with ⟨last, isRest, membersLast⟩
    refine ⟨last, (membersLast last).2 ⟨by simp [split, isRest], .refl, .refl⟩, ?_⟩
    intro other isOther
    rcases List.mem_iff_getElem?.1 isRest with ⟨k, atK⟩
    have atLast : finished[front.length + (k + 1)]? = some last := by
      rw [split, List.getElem?_append_right (by omega)]
      simpa using atK
    have inFinished := ((members other).1 isOther).1
    rw [split] at inFinished
    rcases List.mem_append.1 inFinished with isFront | isBack
    · rcases List.mem_iff_getElem?.1 isFront with ⟨i, atI⟩
      have small := (List.getElem?_eq_some_iff.1 atI).1
      refine ⟨i, front.length + (k + 1), by omega, ?_, atLast⟩
      rwa [split, List.getElem?_append_left small]
    · rcases List.mem_cons.1 isBack with rfl | isRest'
      · exact ⟨front.length, front.length + (k + 1), by omega, by simp [split], atLast⟩
      · -- The vertex would be in the group of the other one.
        rcases grouped.covers other isRest' with ⟨group', isGroup', inGroup⟩
        rcases grouped.members group' isGroup' with ⟨first, -, membersFirst⟩
        have linked := ((membersFirst other).1 inGroup).2
        have inGroup' := (membersFirst vertex).2
          ⟨by simp [split], Mutual.trans linked ((members other).1 isOther).2.symm⟩
        exact absurd inGroup' (isNew group' isGroup')

/-- No group leads back to one that stands before it. -/
theorem pairwise (grouped : Grouped step finished finished groups)
    (finishes : Finishes step [] finished) :
    groups.Pairwise fun first second =>
      ∀ left ∈ first, ∀ right ∈ second, ¬Reaches step right left := by
  apply grouped.ordered.imp_of_mem
  rintro first second isFirst isSecond ⟨last, isLast, before⟩ left isLeft right isRight reaches
  have toLast : Reaches step right last := reaches.trans (grouped.mutual_of_mem isFirst isLeft isLast).1
  rcases grouped.members first isFirst with ⟨vertex, -, members⟩
  rcases grouped.members second isSecond with ⟨vertex', -, members'⟩
  have finishedRight := ((members' right).1 isRight).1
  have asymmetric : ∀ other, Before finished other last → ¬Before finished last other := by
    rintro other ⟨i, j, less, atI, atJ⟩ ⟨i', j', less', atI', atJ'⟩
    have inside := (List.getElem?_eq_some_iff.1 atI).1
    have inside' := (List.getElem?_eq_some_iff.1 atJ).1
    have same := (List.getElem?_inj inside finishes.nodup).1 (atI.trans atJ'.symm)
    have same' := (List.getElem?_inj inside' finishes.nodup).1 (atJ.trans atI'.symm)
    omega
  by_cases back : Reaches step last right
  · have inSecond : last ∈ second :=
      (members' last).2 ⟨((members last).1 isLast).1,
        Mutual.trans ((members' right).1 isRight).2 ⟨toLast, back⟩⟩
    exact asymmetric last (before last inSecond) (before last inSecond)
  · rcases finishes.exists_before finishedRight ((members last).1 isLast).1 toLast back with
      ⟨other, toOther, fromOther, later⟩
    rcases later with ⟨i, j, less, atI, atJ⟩
    have inSecond : other ∈ second :=
      (members' other).2 ⟨List.mem_of_getElem? atJ,
        Mutual.trans ((members' right).1 isRight).2 ⟨toOther, fromOther⟩⟩
    exact asymmetric other (before other inSecond) ⟨i, j, less, atI, atJ⟩

end Grouped

/-! ### Visits -/

/-- What a visit changes. -/
structure Visit.Finishes (step : Vertex → List Vertex) (before after : Visit Vertex)
    (finished : List Vertex) : Prop where
  finished_eq : after.finished = before.finished ++ finished
  mem_seen : ∀ vertex, vertex ∈ after.seen ↔ vertex ∈ before.seen ∨ vertex ∈ finished
  finishes : Search.Finishes step before.seen finished

namespace Visit.Finishes

variable {first second third : Visit Vertex}

theorem refl (state : Visit Vertex) : Visit.Finishes step state state [] where
  finished_eq := by simp
  mem_seen := by simp
  finishes := .nil

theorem trans (finishes : Visit.Finishes step first second finished)
    (finishes' : Visit.Finishes step second third later) :
    Visit.Finishes step first third (finished ++ later) where
  finished_eq := by rw [finishes'.finished_eq, finishes.finished_eq, List.append_assoc]
  mem_seen := by
    intro vertex
    rw [finishes'.mem_seen, finishes.mem_seen, List.mem_append, or_assoc]
  finishes := finishes.finishes.append finishes.mem_seen finishes'.finishes

end Visit.Finishes

variable [DecidableEq Vertex] {domain : List Vertex}

/-- The number of vertices that have not been seen. -/
def unseen (domain seen : List Vertex) : Nat :=
  domain.countP fun vertex => vertex ∉ seen

theorem unseen_le {seen' : List Vertex} (grows : seen ⊆ seen') :
    unseen domain seen' ≤ unseen domain seen := by
  apply List.countP_mono_left
  intro vertex _ notSeen
  simp only [decide_eq_true_eq] at notSeen ⊢
  exact fun isSeen => notSeen (grows isSeen)

theorem unseen_cons_lt (isVertex : vertex ∈ domain) (notSeen : vertex ∉ seen) :
    unseen domain (vertex :: seen) < unseen domain seen := by
  rcases List.append_of_mem isVertex with ⟨front, back, rfl⟩
  have frontLe : unseen front (vertex :: seen) ≤ unseen front seen :=
    unseen_le (List.subset_cons_self _ _)
  have backLe : unseen back (vertex :: seen) ≤ unseen back seen :=
    unseen_le (List.subset_cons_self _ _)
  simp only [unseen, List.countP_append, List.countP_cons] at frontLe backLe ⊢
  simp only [List.mem_cons, true_or, not_true_eq_false, decide_false, Bool.false_eq_true, if_false,
    notSeen, not_false_eq_true, decide_true, if_true] at frontLe backLe ⊢
  omega

/-- What a visit to a vertex does. -/
structure Visit.Visits (step : Vertex → List Vertex) (starts : List Vertex)
    (before after : Visit Vertex) : Prop where
  finishes : ∃ finished, Visit.Finishes step before after finished ∧
    ∀ other ∈ finished, ∃ start ∈ starts, Reaches step start other
  mem_seen : ∀ start ∈ starts, start ∈ after.seen

theorem Visit.Visits.foldl {visits : Visit Vertex → Vertex → Visit Vertex} {depth : Nat}
    (each : ∀ state, unseen domain state.seen ≤ depth → ∀ vertex ∈ domain,
      Visit.Visits step [vertex] state (visits state vertex))
    {vertices : List Vertex} (inside : vertices ⊆ domain) (state : Visit Vertex)
    (enough : unseen domain state.seen ≤ depth) :
    Visit.Visits step vertices state (vertices.foldl visits state) := by
  induction vertices generalizing state with
  | nil => exact ⟨⟨[], .refl state, by simp⟩, by simp⟩
  | cons first rest ih =>
      rcases each state enough first (inside (by simp)) with ⟨⟨finished, finishes, reach⟩, isSeen⟩
      have grows : state.seen ⊆ (visits state first).seen :=
        fun other isOld => (finishes.mem_seen other).2 (.inl isOld)
      rcases ih (fun other isRest => inside (List.mem_cons_of_mem _ isRest)) (visits state first)
        (Nat.le_trans (unseen_le grows) enough) with ⟨⟨later, finishes', reach'⟩, areSeen⟩
      refine ⟨⟨finished ++ later, finishes.trans finishes', ?_⟩, ?_⟩
      · intro other isMember
        rcases List.mem_append.1 isMember with isFinished | isLater
        · rcases reach other isFinished with ⟨start, isStart, reaches⟩
          exact ⟨start, by simp_all, reaches⟩
        · rcases reach' other isLater with ⟨start, isStart, reaches⟩
          exact ⟨start, List.mem_cons_of_mem _ isStart, reaches⟩
      · intro start isStart
        rcases List.mem_cons.1 isStart with rfl | isRest
        · exact (finishes'.mem_seen start).2 (.inl (isSeen start (by simp)))
        · exact areSeen start isRest

/-- A visit that may go as deep as there are unseen vertices visits everything. -/
theorem visit_visits (stays : ∀ source ∈ domain, step source ⊆ domain) (depth : Nat)
    (state : Visit Vertex) (enough : unseen domain state.seen ≤ depth)
    (vertex : Vertex) (isVertex : vertex ∈ domain) :
    Visit.Visits step [vertex] state (visit step depth vertex state) := by
  induction depth generalizing state vertex with
  | zero =>
      have isSeen : vertex ∈ state.seen := by
        by_contra notSeen
        have := unseen_cons_lt isVertex notSeen
        omega
      exact ⟨⟨[], .refl state, by simp⟩, by simpa [visit] using isSeen⟩
  | succ depth ih =>
      rw [visit]
      split
      · next isSeen => exact ⟨⟨[], .refl state, by simp⟩, by simpa using isSeen⟩
      · next notSeen =>
          have fewer := unseen_cons_lt isVertex notSeen
          rcases Visit.Visits.foldl (fun state enough vertex isVertex => ih state enough vertex
              isVertex) (stays vertex isVertex) { state with seen := vertex :: state.seen }
            (by show unseen domain (vertex :: state.seen) ≤ depth; omega)
            with ⟨⟨finished, inner, reach⟩, areSeen⟩
          have reaches : ∀ other ∈ finished, Reaches step vertex other := by
            intro other isFinished
            rcases reach other isFinished with ⟨start, isStart, reaches⟩
            exact .head isStart reaches
          refine ⟨⟨finished ++ [vertex], ⟨?_, ?_, ?_⟩, ?_⟩, ?_⟩
          · simp [inner.finished_eq]
          · intro other
            have := inner.mem_seen other
            simp only [List.mem_cons, List.mem_append, List.not_mem_nil, or_false] at this ⊢
            tauto
          · apply inner.finishes.close notSeen _ reaches
            intro target isTarget
            have := (inner.mem_seen target).1 (areSeen target isTarget)
            simpa [or_assoc] using this
          · intro other isMember
            rcases List.mem_append.1 isMember with isFinished | isVertex
            · exact ⟨vertex, by simp, reaches other isFinished⟩
            · exact ⟨vertex, by simp, List.mem_singleton.1 isVertex ▸ .refl⟩
          · intro start isStart
            have isNew := (inner.mem_seen vertex).2 (.inl (by simp))
            simpa [List.mem_singleton.1 isStart] using isNew

/-- The finishing order of a graph is that of a search which has seen nothing before. -/
theorem finishes_finishingOrder {vertices : List Vertex}
    (stays : ∀ source ∈ vertices, step source ⊆ vertices) :
    Finishes step [] (finishingOrder step vertices) := by
  have enough : unseen vertices ([] : List Vertex) ≤ vertices.length + 1 :=
    Nat.le_succ_of_le List.countP_le_length
  rcases Visit.Visits.foldl (fun state enough vertex isVertex =>
      visit_visits stays (vertices.length + 1) state enough vertex isVertex)
    (List.Subset.refl vertices) { seen := [], finished := [] } enough
    with ⟨⟨finished, finishes, -⟩, -⟩
  have ordered := finishes.finished_eq
  rw [List.nil_append] at ordered
  rw [finishingOrder, ordered]
  exact finishes.finishes

/-- The groups of a finishing order. -/
theorem grouped_componentsFromLast {reaches : Vertex → Vertex → Bool}
    (decides : ∀ source target, reaches source target = true ↔
      Relation.TransGen (Steps step) source target) (finished : List Vertex) :
    Grouped step finished finished (componentsFromLast reaches finished) := by
  have members : ∀ vertex other, other ∈ finished.filter
      (fun other => other = vertex || (reaches vertex other && reaches other vertex)) ↔
        other ∈ finished ∧ Mutual step vertex other := by
    intro vertex other
    simp only [List.mem_filter, Bool.or_eq_true, decide_eq_true_eq, Bool.and_eq_true, decides,
      Mutual, Relation.reflTransGen_iff_eq_or_transGen]
    grind
  have grouped : ∀ rest front, finished = front ++ rest → Grouped step finished rest
      (rest.foldr (fun vertex (groups : List (List Vertex)) =>
        if groups.any fun group => vertex ∈ group then groups
        else groups ++ [finished.filter fun other =>
          other = vertex || (reaches vertex other && reaches other vertex)]) []) := by
    intro rest
    induction rest with
    | nil => exact fun _ _ => ⟨by simp, by simp, by simp, List.Pairwise.nil⟩
    | cons vertex rest ih =>
        intro front split
        have inner := ih (front ++ [vertex]) (by simp [split])
        rw [List.foldr_cons]
        split
        · next found =>
            rcases List.any_eq_true.1 found with ⟨group, isGroup, inGroup⟩
            refine ⟨?_, ?_, inner.sublist, inner.ordered⟩
            · intro other isMember
              rcases List.mem_cons.1 isMember with rfl | isRest
              · exact ⟨group, isGroup, of_decide_eq_true inGroup⟩
              · exact inner.covers other isRest
            · intro group isGroup
              rcases inner.members group isGroup with ⟨other, isRest, members⟩
              exact ⟨other, List.mem_cons_of_mem _ isRest, members⟩
        · next absent =>
            refine inner.snoc split ?_ List.filter_sublist (members vertex)
            intro group isGroup inGroup
            apply absent
            exact List.any_eq_true.2 ⟨group, isGroup, decide_eq_true inGroup⟩
  rw [componentsFromLast, List.foldl_reverse]
  exact grouped finished [] rfl

end Search

end FlowAnalysis
