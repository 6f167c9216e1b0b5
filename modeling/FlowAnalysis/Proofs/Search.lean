import FlowAnalysis.Search
import Mathlib.Data.List.Basic
import Mathlib.Data.List.Perm.Subperm
import Mathlib.Logic.Relation

/-!
# What a search finds

A search with enough layers finds exactly the vertices that steps lead to from its starting
vertices. Enough is one layer for each vertex of a finite universe that the steps do not leave: as
long as the search goes on, each layer adds a vertex to those found before.
-/

namespace FlowAnalysis

namespace Search

variable {Vertex : Type} [DecidableEq Vertex]

/-- A step of a search as a relation. -/
def Steps (step : Vertex → List Vertex) (source target : Vertex) : Prop :=
  target ∈ step source

theorem nodup_eraseDups : (vertices : List Vertex) → vertices.eraseDups.Nodup
  | [] => by simp
  | first :: rest => by
      rw [List.eraseDups_cons, List.nodup_cons]
      refine ⟨?_, nodup_eraseDups _⟩
      simp [List.mem_eraseDups]
termination_by vertices => vertices.length
decreasing_by exact Nat.lt_succ_of_le (List.length_filter_le _ _)

theorem mem_fresh {step : Vertex → List Vertex} {found frontier : List Vertex} {vertex : Vertex} :
    vertex ∈ fresh step found frontier ↔
      (∃ source ∈ frontier, vertex ∈ step source) ∧ vertex ∉ found := by
  simp [fresh, List.mem_eraseDups]

/-- Every vertex of a layer is reached from the frontier. -/
theorem reflTransGen_of_mem_layersFrom {step : Vertex → List Vertex} {bound : Nat}
    {found frontier layer : List Vertex} {vertex : Vertex}
    (layerMem : layer ∈ layersFrom step bound found frontier) (vertexMem : vertex ∈ layer) :
    ∃ source ∈ frontier, Relation.ReflTransGen (Steps step) source vertex := by
  induction bound generalizing found frontier with
  | zero => simp [layersFrom] at layerMem
  | succ bound ih =>
      rw [layersFrom] at layerMem
      split at layerMem
      · simp at layerMem
      · rcases List.mem_cons.1 layerMem with rfl | later
        · exact ⟨vertex, vertexMem, .refl⟩
        · rcases ih later with ⟨next, nextMem, reaches⟩
          rcases mem_fresh.1 nextMem with ⟨⟨source, sourceMem, stepMem⟩, -⟩
          exact ⟨source, sourceMem, .head stepMem reaches⟩

/-- The frontier is the first layer, if there is any. -/
theorem mem_flatten_layersFrom {step : Vertex → List Vertex} {bound : Nat}
    {found frontier : List Vertex} {vertex : Vertex} (layersLeft : bound ≠ 0)
    (onFrontier : vertex ∈ frontier) :
    vertex ∈ (layersFrom step bound found frontier).flatten := by
  rcases Nat.exists_eq_succ_of_ne_zero layersLeft with ⟨bound, rfl⟩
  simp [layersFrom, List.ne_nil_of_mem onFrontier, onFrontier]

/-- A search over a universe has found some vertices, with its frontier among them, and it has
layers left for all the others. -/
structure Underway (domain : List Vertex) (bound : Nat) (found frontier : List Vertex) : Prop where
  distinct : found.Nodup
  inside : found ⊆ domain
  frontierFound : frontier ⊆ found
  enough : frontier = [] ∨ domain.length < bound + found.length

theorem underway_start {domain starts : List Vertex} {bound : Nat} (inside : starts ⊆ domain)
    (enough : domain.length ≤ bound) :
    Underway domain bound starts.eraseDups starts.eraseDups where
  distinct := nodup_eraseDups starts
  inside := fun _ vertexMem => inside (List.mem_eraseDups.1 vertexMem)
  frontierFound := List.Subset.refl _
  enough := by
    by_cases none : starts.eraseDups = []
    · exact .inl none
    · have positive := List.length_pos_iff.2 none
      exact .inr (by omega)

namespace Underway

variable {step : Vertex → List Vertex} {domain : List Vertex}
  {bound : Nat} {found frontier : List Vertex}

omit [DecidableEq Vertex] in
/-- A search does not run out of layers while there is a frontier. -/
theorem eq_nil_or_ne_zero (underway : Underway domain bound found frontier) :
    frontier = [] ∨ bound ≠ 0 := by
  have few := (underway.distinct.subperm underway.inside).length_le
  rcases underway.enough with none | enough
  · exact .inl none
  · exact .inr (by omega)

/-- Each layer adds a vertex to those found before. -/
theorem next (underway : Underway domain (bound + 1) found frontier)
    (stays : ∀ source ∈ domain, ∀ target ∈ step source, target ∈ domain)
    (notDone : frontier ≠ []) :
    Underway domain bound (found ++ fresh step found frontier) (fresh step found frontier) where
  distinct := by
    rw [List.nodup_append]
    refine ⟨underway.distinct, nodup_eraseDups _, ?_⟩
    rintro old oldMem new newMem rfl
    exact (mem_fresh.1 newMem).2 oldMem
  inside := by
    intro vertex vertexMem
    rcases List.mem_append.1 vertexMem with old | new
    · exact underway.inside old
    · rcases mem_fresh.1 new with ⟨⟨before, beforeMem, stepMem⟩, -⟩
      exact stays before (underway.inside (underway.frontierFound beforeMem)) vertex stepMem
  frontierFound := List.subset_append_right _ _
  enough := by
    by_cases none : fresh step found frontier = []
    · exact .inl none
    · have positive := List.length_pos_iff.2 none
      have enough := underway.enough.resolve_left notDone
      right
      rw [List.length_append]
      omega

end Underway

/-- What has been found, together with the layers still to come, is closed under steps. -/
theorem closed_layersFrom {step : Vertex → List Vertex} {domain : List Vertex}
    (stays : ∀ source ∈ domain, ∀ target ∈ step source, target ∈ domain) {bound : Nat}
    {found frontier : List Vertex} (underway : Underway domain bound found frontier)
    (settled : ∀ source ∈ found, source ∉ frontier → step source ⊆ found) {source target : Vertex}
    (sourceMem : source ∈ found ++ (layersFrom step bound found frontier).flatten)
    (targetMem : target ∈ step source) :
    target ∈ found ++ (layersFrom step bound found frontier).flatten := by
  induction bound generalizing found frontier with
  | zero =>
      have done := underway.eq_nil_or_ne_zero.resolve_right (by simp)
      subst done
      simp only [layersFrom, List.flatten_nil, List.append_nil] at sourceMem ⊢
      exact settled source sourceMem (by simp) targetMem
  | succ bound ih =>
      by_cases done : frontier = []
      · subst done
        simp only [layersFrom, List.isEmpty_nil, if_true, List.flatten_nil, List.append_nil]
          at sourceMem ⊢
        exact settled source sourceMem (by simp) targetMem
      · have unfolded : layersFrom step (bound + 1) found frontier =
            frontier :: layersFrom step bound (found ++ fresh step found frontier)
              (fresh step found frontier) := by
          simp [layersFrom, done]
        have next := underway.next stays done
        have nextSettled : ∀ before ∈ found ++ fresh step found frontier,
            before ∉ fresh step found frontier →
              step before ⊆ found ++ fresh step found frontier := by
          intro before beforeMem notFresh after afterMem
          rcases List.mem_append.1 beforeMem with old | new
          · by_cases onFrontier : before ∈ frontier
            · by_cases known : after ∈ found
              · exact List.mem_append_left _ known
              · exact List.mem_append_right _ (mem_fresh.2 ⟨⟨before, onFrontier, afterMem⟩, known⟩)
            · exact List.mem_append_left _ (settled before old onFrontier afterMem)
          · exact absurd new notFresh
        rw [unfolded, List.flatten_cons] at sourceMem ⊢
        have sourceLater : source ∈ (found ++ fresh step found frontier) ++
            (layersFrom step bound (found ++ fresh step found frontier)
              (fresh step found frontier)).flatten := by
          simp only [List.mem_append] at sourceMem ⊢
          rcases sourceMem with old | onFrontier | later
          · exact .inl (.inl old)
          · exact .inl (.inl (underway.frontierFound onFrontier))
          · exact .inr later
        have targetLater := ih next nextSettled sourceLater
        simp only [List.mem_append] at targetLater ⊢
        rcases targetLater with (old | new) | later
        · exact .inl old
        · -- A frontier that is not empty is the first of the layers to come.
          have layersLeft := next.eq_nil_or_ne_zero.resolve_left (List.ne_nil_of_mem new)
          exact .inr (.inr (mem_flatten_layersFrom layersLeft new))
        · exact .inr (.inr later)

/-- With one layer for each vertex of a universe that the steps do not leave, a search finds exactly
what steps lead to from its starting vertices. -/
theorem mem_reached_iff {step : Vertex → List Vertex} {domain : List Vertex}
    (stays : ∀ source ∈ domain, ∀ target ∈ step source, target ∈ domain) {bound : Nat}
    (enough : domain.length ≤ bound) {starts : List Vertex} (inside : starts ⊆ domain)
    {vertex : Vertex} :
    vertex ∈ reached step bound starts ↔
      ∃ source ∈ starts, Relation.ReflTransGen (Steps step) source vertex := by
  constructor
  · intro vertexMem
    rcases List.mem_flatten.1 vertexMem with ⟨layer, layerMem, vertexMem⟩
    rcases reflTransGen_of_mem_layersFrom layerMem vertexMem with ⟨source, sourceMem, reaches⟩
    exact ⟨source, List.mem_eraseDups.1 sourceMem, reaches⟩
  · rintro ⟨source, sourceMem, reaches⟩
    have underway := underway_start inside enough
    have someStart : starts.eraseDups ≠ [] :=
      List.ne_nil_of_mem (List.mem_eraseDups.2 sourceMem)
    have layersLeft := underway.eq_nil_or_ne_zero.resolve_left someStart
    have startsFound : ∀ start ∈ starts.eraseDups, start ∈ reached step bound starts :=
      fun start startMem => mem_flatten_layersFrom layersLeft startMem
    induction reaches with
    | refl => exact startsFound source (List.mem_eraseDups.2 sourceMem)
    | tail _ stepMem ih =>
        have closed := closed_layersFrom stays underway (by simp +contextual)
          (List.mem_append_right _ ih) stepMem
        rcases List.mem_append.1 closed with start | later
        · exact startsFound _ start
        · exact later

/-- No vertex is in two layers. -/
theorem nodup_layersFrom {step : Vertex → List Vertex} {bound : Nat} {found frontier : List Vertex}
    (distinct : frontier.Nodup) (frontierFound : frontier ⊆ found) :
    (layersFrom step bound found frontier).flatten.Nodup ∧
      ∀ vertex ∈ (layersFrom step bound found frontier).flatten, vertex ∈ found →
        vertex ∈ frontier := by
  induction bound generalizing found frontier with
  | zero => simp [layersFrom]
  | succ bound ih =>
      rw [layersFrom]
      split
      · simp
      · rcases ih (nodup_eraseDups _) (List.subset_append_right found (fresh step found frontier)) with
          ⟨restDistinct, restFresh⟩
        have restNew : ∀ vertex ∈ (layersFrom step bound (found ++ fresh step found frontier)
            (fresh step found frontier)).flatten, vertex ∉ found := by
          intro vertex later old
          have isFresh := restFresh vertex later (List.mem_append_left _ old)
          exact (mem_fresh.1 isFresh).2 old
        rw [List.flatten_cons, List.nodup_append]
        refine ⟨⟨distinct, restDistinct, ?_⟩, ?_⟩
        · rintro vertex onFrontier _ later rfl
          exact restNew vertex later (frontierFound onFrontier)
        · intro vertex isMember old
          rcases List.mem_append.1 isMember with onFrontier | later
          · exact onFrontier
          · exact absurd old (restNew vertex later)

/-- A search finds every vertex once. -/
theorem nodup_reached (step : Vertex → List Vertex) (bound : Nat) (starts : List Vertex) :
    (reached step bound starts).Nodup :=
  (nodup_layersFrom (nodup_eraseDups starts) (List.Subset.refl _)).1

end Search

end FlowAnalysis
