import FlowAnalysis.Proofs.Analysis.Slice
import FlowAnalysis.Proofs.DepthFirst

/-!
# The order of slices

Statements that depend on each other form groups. A slice lists group after group, and no edges lead
from a group to one listed before it.
-/

namespace FlowAnalysis

namespace Location

/-- Locations in the order of the text, by first line and first column. -/
def StartsNoLater (left right : Location) : Prop :=
  left.firstLine < right.firstLine ∨
    left.firstLine = right.firstLine ∧ left.firstColumn ≤ right.firstColumn

theorem not_startsBefore {left right : Location} :
    (!right.startsBefore left) = true ↔ left.StartsNoLater right := by
  simp only [startsBefore, StartsNoLater, Bool.not_eq_true', Bool.or_eq_false_iff,
    Bool.and_eq_false_iff, decide_eq_false_iff_not]
  omega

theorem StartsNoLater.trans {left middle right : Location} (first : left.StartsNoLater middle)
    (second : middle.StartsNoLater right) : left.StartsNoLater right := by
  simp only [StartsNoLater] at *
  omega

theorem startsNoLater_total (left right : Location) :
    left.StartsNoLater right ∨ right.StartsNoLater left := by
  simp only [StartsNoLater]
  omega

end Location

namespace Search

variable {Element : Type} {groups : List (List Element)} {Linked : Element → Element → Prop}

/-- An element of a list stays before those of later lists. -/
theorem sublist_flatten_of_not_linked
    (apart : groups.Pairwise fun first second => ∀ left ∈ first, ∀ right ∈ second,
      ¬Linked right left)
    {left right : Element} (isLeft : left ∈ groups.flatten) (isRight : right ∈ groups.flatten)
    (linked : Linked left right)
    (separate : ∀ group ∈ groups, left ∈ group → right ∉ group) :
    [left, right].Sublist groups.flatten := by
  induction groups with
  | nil => simp at isLeft
  | cons first rest ih =>
      rw [List.pairwise_cons] at apart
      rw [List.flatten_cons] at isLeft isRight ⊢
      rcases List.mem_append.1 isLeft with inFirst | inRest
      · rcases List.mem_append.1 isRight with inFirst' | inRest'
        · exact absurd inFirst' (separate first (by simp) inFirst)
        · exact List.Sublist.append (List.singleton_sublist.2 inFirst)
            (List.singleton_sublist.2 inRest')
      · rcases List.mem_append.1 isRight with inFirst' | inRest'
        · rcases List.mem_flatten.1 inRest with ⟨group, isGroup, inGroup⟩
          exact absurd linked (apart.1 group isGroup right inFirst' left inGroup)
        · apply (ih apart.2 inRest inRest' ?_).trans (List.sublist_append_right _ _)
          exact fun group isGroup => separate group (List.mem_cons_of_mem _ isGroup)

/-- What stands between linked elements is in the same list. -/
theorem exists_sublist_of_linked
    (apart : groups.Pairwise fun first second => ∀ left ∈ first, ∀ right ∈ second,
      ¬Linked right left)
    {left right : Element} {between : List Element}
    (order : (left :: (between ++ [right])).Sublist groups.flatten) (linked : Linked right left) :
    ∃ group ∈ groups, (left :: (between ++ [right])).Sublist group := by
  induction groups with
  | nil => simp at order
  | cons first rest ih =>
      rw [List.pairwise_cons] at apart
      rw [List.flatten_cons, List.sublist_append_iff] at order
      rcases order with ⟨early, late, split, inFirst, inRest⟩
      rcases early with _ | ⟨head, early⟩
      · rw [List.nil_append] at split
        rcases ih apart.2 (split ▸ inRest) with ⟨group, isGroup, order⟩
        exact ⟨group, List.mem_cons_of_mem _ isGroup, order⟩
      · rw [List.cons_append, List.cons.injEq] at split
        rcases List.eq_nil_or_concat late with rfl | ⟨front, last, rfl⟩
        · rw [List.append_nil] at split
          exact ⟨first, by simp, split.1 ▸ split.2 ▸ inFirst⟩
        · rw [List.concat_eq_append, ← List.append_assoc] at split
          have isLast : right = last := by
            simpa using congrArg List.getLast? split.2
          rcases List.mem_flatten.1 (inRest.subset (show last ∈ front.concat last by simp)) with
            ⟨group, isGroup, inGroup⟩
          have isHead : left ∈ first := split.1 ▸ inFirst.subset (by simp)
          exact absurd linked (apart.1 group isGroup left isHead right (isLast ▸ inGroup))

end Search

namespace AnalysisResult

variable {result : AnalysisResult} {start : Node}

/-- One or more edges lead from one key to another. -/
def LeadsTo (result : AnalysisResult) : String → String → Prop :=
  Relation.TransGen fun source target =>
    ∃ flow ∈ result.dataflows.toList, flow.source.key = source ∧ flow.target.key = target

theorem leadsTo_eq : result.LeadsTo = Relation.TransGen (Search.Steps result.targets) := by
  rw [LeadsTo]
  congr 1
  funext source target
  exact propext mem_targets.symm

theorem lookup_map_self {Value : Type} (value : String → Value) (keys : List String)
    (source : String) : (keys.map fun key => (key, value key)).lookup source =
      if source ∈ keys then some (value source) else none := by
  induction keys with
  | nil => simp
  | cons first rest ih =>
      rw [List.map_cons, List.lookup_cons, ih]
      by_cases same : source = first
      · simp [same]
      · simp [same, beq_false_of_ne same]

/-- What leads somewhere is on an edge. -/
theorem mem_statementKeys_of_leadsTo {source target : String}
    (leads : result.LeadsTo source target) :
    source ∈ result.statementKeys ∧ target ∈ result.statementKeys := by
  constructor
  · rcases Relation.TransGen.head'_iff.1 leads with ⟨_, ⟨flow, isFlow, sourceKey, -⟩, -⟩
    exact mem_statementKeys.2 ⟨flow, isFlow, .inl sourceKey⟩
  · rcases Relation.TransGen.tail'_iff.1 leads with ⟨_, -, flow, isFlow, -, targetKey⟩
    exact mem_statementKeys.2 ⟨flow, isFlow, .inr targetKey⟩

/-- The reachability that a slice looks up. -/
theorem mem_lookup_reachedKeys {source target : String} :
    target ∈ ((result.statementKeys.map fun key => (key, result.reachedKeys key)).lookup
      source).getD [] ↔ result.LeadsTo source target := by
  rw [lookup_map_self]
  split
  · rw [Option.getD_some, mem_reachedKeys, leadsTo_eq]
  · next absent =>
      rw [Option.getD_none]
      refine ⟨fun isMember => absurd isMember List.not_mem_nil, fun leads => ?_⟩
      exact absurd (mem_statementKeys_of_leadsTo leads).1 absent

/-- What a list of statements has to be in order to be the slice of a statement. Statements are
identified by their keys. -/
structure IsSlice (result : AnalysisResult) (start : Node) (slice : List Node) : Prop where
  onEdge : ∀ statement ∈ slice, ∃ flow ∈ result.dataflows.toList,
    statement = flow.source ∨ statement = flow.target
  distinct : (slice.map Node.key).Nodup
  mem_iff : ∀ key, key ∈ slice.map Node.key ↔ result.LeadsTo start.key key ∧ key ≠ start.key
  topological : ∀ left ∈ slice, ∀ right ∈ slice, result.LeadsTo left.key right.key →
    ¬result.LeadsTo right.key left.key → [left, right].Sublist slice
  contiguous : ∀ left middle right, [left, middle, right].Sublist slice →
    result.LeadsTo left.key right.key → result.LeadsTo right.key left.key →
      result.LeadsTo left.key middle.key ∧ result.LeadsTo middle.key left.key
  sorted : ∀ left right, [left, right].Sublist slice → result.LeadsTo left.key right.key →
    result.LeadsTo right.key left.key → left.location.StartsNoLater right.location
  isolated : (∀ flow ∈ result.dataflows.toList,
    flow.source.key ≠ start.key ∧ flow.target.key ≠ start.key) → slice = []

/-- The statements of a group that a slice lists. -/
def listed (result : AnalysisResult) (wanted component : List String) : List Node :=
  ((component.filter fun key => key ∈ wanted).filterMap result.statement?).mergeSort
    fun left right => !right.location.startsBefore left.location

theorem mem_listed {wanted component : List String} {statement : Node} :
    statement ∈ result.listed wanted component ↔ statement.key ∈ component ∧
      statement.key ∈ wanted ∧ result.statement? statement.key = some statement := by
  simp only [listed, List.mem_mergeSort, List.mem_filterMap, List.mem_filter, decide_eq_true_eq]
  constructor
  · rintro ⟨key, ⟨isMember, isWanted⟩, isStatement⟩
    have sameKey : statement.key = key := by
      simpa using List.find?_some isStatement
    exact sameKey ▸ ⟨isMember, isWanted, isStatement⟩
  · rintro ⟨isMember, isWanted, isStatement⟩
    exact ⟨statement.key, ⟨isMember, isWanted⟩, isStatement⟩

theorem listed_sorted (wanted component : List String) :
    (result.listed wanted component).Pairwise fun left right =>
      left.location.StartsNoLater right.location := by
  apply (List.pairwise_mergeSort _ _ _).imp
  · intro left right ordered
    exact Location.not_startsBefore.1 ordered
  · intro left middle right first second
    rw [Location.not_startsBefore] at *
    exact first.trans second
  · intro left right
    rw [Bool.or_eq_true, Location.not_startsBefore, Location.not_startsBefore]
    exact Location.startsNoLater_total _ _

theorem listed_distinct {wanted component : List String} (distinct : component.Nodup) :
    (result.listed wanted component).Pairwise fun left right => left.key ≠ right.key := by
  rw [listed, (List.mergeSort_perm _ _).pairwise_iff fun differ => differ.symm]
  rw [List.pairwise_filterMap]
  apply (distinct.filter _).imp
  intro left right differ leftNode isLeft rightNode isRight sameKey
  have leftKey : leftNode.key = left := by
    simpa using List.find?_some isLeft
  have rightKey : rightNode.key = right := by
    simpa using List.find?_some isRight
  exact differ (leftKey ▸ rightKey ▸ sameKey)

/-- The groups that a slice goes through. -/
def groups (result : AnalysisResult) : List (List String) :=
  Search.componentsFromLast
    (fun source target => target ∈ ((result.statementKeys.map fun key =>
      (key, result.reachedKeys key)).lookup source).getD [])
    (Search.finishingOrder result.targets result.statementKeys)

/-- The keys that a slice lists. -/
def wanted (result : AnalysisResult) (start : Node) : List String :=
  (result.reachedKeys start.key).filter fun key => key != start.key

theorem mem_wanted {key : String} :
    key ∈ result.wanted start ↔ result.LeadsTo start.key key ∧ key ≠ start.key := by
  rw [wanted, List.mem_filter, mem_reachedKeys, leadsTo_eq, bne_iff_ne]

theorem dependentsOf_eq : result.dependentsOf start =
    (result.groups.map (result.listed (result.wanted start))).flatten := by
  rw [← List.flatMap_def]
  rfl

theorem grouped_groups : Search.Grouped result.targets
    (Search.finishingOrder result.targets result.statementKeys)
    (Search.finishingOrder result.targets result.statementKeys) result.groups := by
  apply Search.grouped_componentsFromLast
  intro source target
  rw [decide_eq_true_eq, mem_lookup_reachedKeys, leadsTo_eq]

theorem finishes_keys : Search.Finishes result.targets []
    (Search.finishingOrder result.targets result.statementKeys) := by
  apply Search.finishes_finishingOrder
  intro source _ target isTarget
  rcases mem_targets.1 isTarget with ⟨flow, isFlow, -, targetKey⟩
  exact mem_statementKeys.2 ⟨flow, isFlow, .inr targetKey⟩

theorem nodup_of_mem_groups {component : List String} (isGroup : component ∈ result.groups) :
    component.Nodup :=
  finishes_keys.nodup.sublist (grouped_groups.sublist component isGroup)

/-- No edges lead from a statement to one listed in an earlier group. -/
theorem pairwise_listed : (result.groups.map (result.listed (result.wanted start))).Pairwise
    fun first second => ∀ left ∈ first, ∀ right ∈ second,
      ¬Search.Reaches result.targets right.key left.key := by
  rw [List.pairwise_map]
  apply (grouped_groups.pairwise finishes_keys).imp
  intro first second apart left isLeft right isRight
  exact apart left.key (mem_listed.1 isLeft).1 right.key (mem_listed.1 isRight).1

/-- Statements of different keys reach each other if edges lead from one to the other. -/
theorem LeadsTo.reaches {source target : String} (leads : result.LeadsTo source target) :
    Search.Reaches result.targets source target := by
  rw [leadsTo_eq] at leads
  exact leads.to_reflTransGen

theorem leadsTo_of_reaches {source target : String} (differ : source ≠ target)
    (reaches : Search.Reaches result.targets source target) : result.LeadsTo source target := by
  rw [leadsTo_eq]
  exact (Relation.reflTransGen_iff_eq_or_transGen.1 reaches).resolve_left differ.symm

theorem mem_dependentsOf {statement : Node} : statement ∈ result.dependentsOf start ↔
    result.LeadsTo start.key statement.key ∧ statement.key ≠ start.key ∧
      result.statement? statement.key = some statement := by
  rw [dependentsOf_eq, List.mem_flatten]
  constructor
  · rintro ⟨listed, isListed, isMember⟩
    rcases List.mem_map.1 isListed with ⟨component, -, rfl⟩
    rcases mem_listed.1 isMember with ⟨-, isWanted, isStatement⟩
    exact ⟨(mem_wanted.1 isWanted).1, (mem_wanted.1 isWanted).2, isStatement⟩
  · rintro ⟨leads, differs, isStatement⟩
    have isKey := (mem_statementKeys_of_leadsTo leads).2
    rcases grouped_groups.covers _ (Search.mem_finishingOrder isKey) with
      ⟨component, isComponent, isMember⟩
    refine ⟨result.listed (result.wanted start) component, List.mem_map_of_mem isComponent, ?_⟩
    exact mem_listed.2 ⟨isMember, mem_wanted.2 ⟨leads, differs⟩, isStatement⟩

theorem pairwise_dependentsOf :
    (result.dependentsOf start).Pairwise fun left right => left.key ≠ right.key := by
  rw [dependentsOf_eq, List.pairwise_flatten]
  constructor
  · intro listed isListed
    rcases List.mem_map.1 isListed with ⟨component, isComponent, rfl⟩
    exact listed_distinct (nodup_of_mem_groups isComponent)
  · apply pairwise_listed.imp
    intro first second apart left isLeft right isRight sameKey
    exact apart left isLeft right isRight (sameKey ▸ .refl)

/-- Linked statements are listed together with what stands between them, in the order of the
text. -/
theorem exists_listed_of_linked {left right : Node} {between : List Node}
    (order : (left :: (between ++ [right])).Sublist (result.dependentsOf start))
    (linked : result.LeadsTo right.key left.key) :
    ∃ component ∈ result.groups, (left :: (between ++ [right])).Sublist
      (result.listed (result.wanted start) component) := by
  rw [dependentsOf_eq] at order
  rcases Search.exists_sublist_of_linked pairwise_listed order linked.reaches with
    ⟨listed, isListed, order⟩
  rcases List.mem_map.1 isListed with ⟨component, isComponent, rfl⟩
  exact ⟨component, isComponent, order⟩

/-- The statements that depend on one are its slice. -/
theorem dependentsOf_isSlice (result : AnalysisResult) (start : Node) :
    result.IsSlice start (result.dependentsOf start) := by
  refine ⟨?onEdge, ?distinct, ?memIff, ?topological, ?contiguous, ?sorted, ?isolated⟩
  case onEdge =>
    intro statement isMember
    have found := List.mem_of_find?_eq_some (mem_dependentsOf.1 isMember).2.2
    simpa using found
  case distinct =>
    exact List.pairwise_map.2 pairwise_dependentsOf
  case memIff =>
    intro key
    rw [List.mem_map, leadsTo_eq]
    exact exists_mem_dependentsOf
  case topological =>
    intro left isLeft right isRight leads oneWay
    have differ : left.key ≠ right.key := by
      intro sameKey
      rw [sameKey] at leads oneWay
      exact oneWay leads
    rw [dependentsOf_eq] at isLeft isRight ⊢
    apply Search.sublist_flatten_of_not_linked pairwise_listed isLeft isRight leads.reaches
    intro listed isListed inListed inListed'
    rcases List.mem_map.1 isListed with ⟨component, isComponent, rfl⟩
    have both := grouped_groups.mutual_of_mem isComponent (mem_listed.1 inListed).1
      (mem_listed.1 inListed').1
    exact oneWay (leadsTo_of_reaches differ.symm both.2)
  case contiguous =>
    intro left middle right order _ back
    have around : (left :: ([middle] ++ [right])).Sublist (result.dependentsOf start) := order
    rcases exists_listed_of_linked around back with ⟨component, isComponent, inComponent⟩
    have differ := List.rel_of_pairwise_cons (pairwise_dependentsOf.sublist order)
      (List.mem_cons_self)
    have both := grouped_groups.mutual_of_mem isComponent
      (mem_listed.1 (inComponent.subset (show left ∈ _ by simp))).1
      (mem_listed.1 (inComponent.subset (show middle ∈ _ by simp))).1
    exact ⟨leadsTo_of_reaches differ both.1, leadsTo_of_reaches differ.symm both.2⟩
  case sorted =>
    intro left right order _ back
    have adjacent : (left :: ([] ++ [right])).Sublist (result.dependentsOf start) := order
    rcases exists_listed_of_linked adjacent back with ⟨component, -, inComponent⟩
    exact List.rel_of_pairwise_cons ((listed_sorted _ component).sublist inComponent)
      List.mem_cons_self
  case isolated =>
    intro isolated
    rw [List.eq_nil_iff_forall_not_mem]
    intro statement isMember
    have isKey := (mem_statementKeys_of_leadsTo (mem_dependentsOf.1 isMember).1).1
    rcases mem_statementKeys.1 isKey with ⟨flow, isFlow, sourceKey | targetKey⟩
    · exact (isolated flow isFlow).1 sourceKey
    · exact (isolated flow isFlow).2 targetKey

end AnalysisResult

end FlowAnalysis
