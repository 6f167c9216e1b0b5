import FlowAnalysis.Analysis.Result
import FlowAnalysis.Proofs.KeyedSet
import FlowAnalysis.Proofs.Search

/-!
# Slices

The statements that depend on one are exactly those that edges lead to from it. The order in which
they are listed comes from a depth-first search that finishes every statement, whatever bounds its
depth, and from groups that leave none out.
-/

namespace FlowAnalysis

namespace Search

variable {Vertex : Type} {step : Vertex → List Vertex} {vertex : Vertex}

/-- A search goes on: nothing is forgotten, and what is seen for the first time is finished. -/
structure Visit.Advances (before after : Visit Vertex) : Prop where
  seen : before.seen ⊆ after.seen
  finished : before.finished ⊆ after.finished
  settled : ∀ vertex ∈ after.seen, vertex ∈ before.seen ∨ vertex ∈ after.finished

namespace Visit.Advances

variable {first second third : Visit Vertex}

theorem refl (state : Visit Vertex) : state.Advances state where
  seen := List.Subset.refl _
  finished := List.Subset.refl _
  settled := fun _ isSeen => .inl isSeen

theorem trans (advances : first.Advances second) (advances' : second.Advances third) :
    first.Advances third where
  seen := List.Subset.trans advances.seen advances'.seen
  finished := List.Subset.trans advances.finished advances'.finished
  settled := by
    intro vertex isSeen
    rcases advances'.settled vertex isSeen with early | isFinished
    · rcases advances.settled vertex early with earlier | isFinished
      · exact .inl earlier
      · exact .inr (advances'.finished isFinished)
    · exact .inr isFinished

theorem foldl {visits : Visit Vertex → Vertex → Visit Vertex}
    (advances : ∀ state vertex, Advances state (visits state vertex)) (vertices : List Vertex)
    (state : Visit Vertex) : state.Advances (vertices.foldl visits state) := by
  induction vertices generalizing state with
  | nil => exact .refl state
  | cons first rest ih => exact (advances state first).trans (ih _)

end Visit.Advances

variable [DecidableEq Vertex]

theorem advances_visit (depth : Nat) (vertex : Vertex) (state : Visit Vertex) :
    state.Advances (visit step depth vertex state) := by
  induction depth generalizing vertex state with
  | zero => exact .refl state
  | succ depth ih =>
      rw [visit]
      split
      · exact .refl state
      · have inner := Visit.Advances.foldl (fun state next => ih next state) (step vertex)
          { state with seen := vertex :: state.seen }
        refine ⟨?_, ?_, ?_⟩
        · exact List.Subset.trans (List.subset_cons_self _ _) inner.seen
        · exact List.Subset.trans inner.finished (List.subset_append_left _ _)
        · intro other isSeen
          rcases inner.settled other isSeen with early | isFinished
          · rcases List.mem_cons.1 early with rfl | early
            · exact .inr (by simp)
            · exact .inl early
          · exact .inr (List.mem_append_left _ isFinished)

theorem mem_seen_visit (depth : Nat) (vertex : Vertex) (state : Visit Vertex) :
    vertex ∈ (visit step (depth + 1) vertex state).seen := by
  rw [visit]
  split
  · assumption
  · apply (Visit.Advances.foldl (fun state next => advances_visit depth next state) _ _).seen
    simp

/-- A search finishes all vertices, however deep they are. -/
theorem mem_finishingOrder {vertices : List Vertex} (isVertex : vertex ∈ vertices) :
    vertex ∈ finishingOrder step vertices := by
  have advances : ∀ state next,
      Visit.Advances state (visit step (vertices.length + 1) next state) :=
    fun state next => advances_visit _ next state
  rcases List.append_of_mem isVertex with ⟨front, back, split⟩
  have isSeen : vertex ∈ (vertices.foldl
      (fun state vertex => visit step (vertices.length + 1) vertex state)
      { seen := [], finished := [] }).seen := by
    conv => enter [1, 1, 3]; rw [split]
    rw [List.foldl_append, List.foldl_cons]
    exact (Visit.Advances.foldl advances back _).seen (mem_seen_visit _ _ _)
  have settled := (Visit.Advances.foldl advances vertices { seen := [], finished := [] }).settled
  exact (settled vertex isSeen).resolve_left List.not_mem_nil

/-- A vertex stays in its group, and it gets one of its own if it is in none. -/
theorem exists_mem_of_grouped {component : Vertex → List Vertex}
    (isInside : vertex ∈ component vertex) (vertices : List Vertex) {groups : List (List Vertex)}
    (grouped : vertex ∈ vertices ∨ ∃ group ∈ groups, vertex ∈ group) :
    ∃ group ∈ vertices.foldl
      (fun groups vertex =>
        if groups.any fun group => vertex ∈ group then groups else groups ++ [component vertex])
      groups, vertex ∈ group := by
  induction vertices generalizing groups with
  | nil => exact grouped.resolve_left List.not_mem_nil
  | cons first rest ih =>
      rw [List.foldl_cons]
      apply ih
      rcases grouped with isVertex | ⟨group, isGroup, isMember⟩
      · rcases List.mem_cons.1 isVertex with rfl | later
        · right
          split
          · next found => simpa using found
          · exact ⟨component vertex, by simp, isInside⟩
        · exact .inl later
      · refine .inr ⟨group, ?_, isMember⟩
        split
        · exact isGroup
        · exact List.mem_append_left _ isGroup

theorem exists_mem_componentsFromLast (reaches : Vertex → Vertex → Bool) {finished : List Vertex}
    (isFinished : vertex ∈ finished) :
    ∃ component ∈ componentsFromLast reaches finished, vertex ∈ component := by
  apply exists_mem_of_grouped
  · simp [isFinished]
  · exact .inl (List.mem_reverse.2 isFinished)

end Search

namespace AnalysisResult

variable {result : AnalysisResult} {key source target : String}

theorem mem_statementKeys : key ∈ result.statementKeys ↔
    ∃ flow ∈ result.dataflows.toList, flow.source.key = key ∨ flow.target.key = key := by
  simp [statementKeys, List.mem_eraseDups, eq_comm]

theorem mem_targets : target ∈ result.targets source ↔
    ∃ flow ∈ result.dataflows.toList, flow.source.key = source ∧ flow.target.key = target := by
  simp [targets, and_assoc]

/-- The keys that one or more edges lead to. -/
theorem mem_reachedKeys : target ∈ result.reachedKeys source ↔
    Relation.TransGen (Search.Steps result.targets) source target := by
  have isKey : ∀ source, ∀ target ∈ result.targets source, target ∈ result.statementKeys := by
    intro source target isTarget
    rcases mem_targets.1 isTarget with ⟨flow, isFlow, -, targetKey⟩
    exact mem_statementKeys.2 ⟨flow, isFlow, .inr targetKey⟩
  rw [reachedKeys, Search.mem_reached_iff (fun source _ => isKey source) (Nat.le_succ _)
    (isKey source), Relation.TransGen.head'_iff]
  rfl

theorem exists_statement? (isKey : key ∈ result.statementKeys) :
    ∃ node, result.statement? key = some node ∧ node.key = key := by
  rcases mem_statementKeys.1 isKey with ⟨flow, isFlow, hasKey⟩
  rw [statement?]
  cases found : (result.dataflows.toList.flatMap fun flow => [flow.source, flow.target]).find?
      fun node => node.key == key with
  | some node => exact ⟨node, rfl, by simpa using List.find?_some found⟩
  | none =>
      have absent := List.find?_eq_none.1 found
      have isEnd : ∀ node ∈ [flow.source, flow.target], node.key ≠ key := by
        intro node isEnd
        simpa using absent node (List.mem_flatMap.2 ⟨flow, isFlow, isEnd⟩)
      rcases hasKey with hasKey | hasKey
      · exact absurd hasKey (isEnd flow.source (by simp))
      · exact absurd hasKey (isEnd flow.target (by simp))

/-- A statement depends on another one exactly if edges lead to it from there. -/
theorem exists_mem_dependentsOf {node : Node} :
    (∃ dependent ∈ result.dependentsOf node, dependent.key = key) ↔
      Relation.TransGen (Search.Steps result.targets) node.key key ∧ key ≠ node.key := by
  rw [← mem_reachedKeys]
  simp only [dependentsOf, List.mem_flatMap, List.mem_mergeSort, List.mem_filterMap,
    List.mem_filter, decide_eq_true_eq, bne_iff_ne, ne_eq]
  constructor
  · rintro ⟨dependent, ⟨component, -, found, ⟨-, isReached, differs⟩, isStatement⟩, rfl⟩
    have sameKey : dependent.key = found := by
      simpa using List.find?_some isStatement
    exact sameKey ▸ ⟨isReached, differs⟩
  · rintro ⟨isReached, differs⟩
    have isKey : key ∈ result.statementKeys := by
      rcases (Relation.TransGen.tail'_iff.1 (mem_reachedKeys.1 isReached)) with ⟨_, -, isTarget⟩
      rcases mem_targets.1 isTarget with ⟨flow, isFlow, -, targetKey⟩
      exact mem_statementKeys.2 ⟨flow, isFlow, .inr targetKey⟩
    rcases exists_statement? isKey with ⟨dependent, isStatement, dependentKey⟩
    rcases Search.exists_mem_componentsFromLast _ (Search.mem_finishingOrder isKey) with
      ⟨component, isComponent, isMember⟩
    exact ⟨dependent, ⟨component, isComponent, key, ⟨isMember, isReached, differs⟩, isStatement⟩,
      dependentKey⟩

end AnalysisResult

end FlowAnalysis
