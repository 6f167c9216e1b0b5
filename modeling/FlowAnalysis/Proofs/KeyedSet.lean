import FlowAnalysis.KeyedSet
import Mathlib.Data.List.Nodup
import Mathlib.Data.List.Perm.Subperm

/-!
# Members and keys of keyed sets

What the operations on keyed sets do to the members and to the keys. A set has at most one member
with a key, so an operation that adds a key does not always add the item that brought it.
-/

namespace FlowAnalysis

namespace KeyedSet

variable {Item : Type} [Keyed Item] {set other : KeyedSet Item} {item member : Item} {key : String}

/-! ### Members in order -/

theorem entries_eq (set : KeyedSet Item) :
    set.entries = set.toList.map fun item => (Keyed.key item, item) := by
  rw [toList, List.map_map]
  conv_lhs => rw [← List.map_id set.entries]
  exact List.map_congr_left fun entry entryMem => Prod.ext (set.keyed entry entryMem) rfl

/-- A set is told by its members in order. -/
theorem ext_toList (same : set.toList = other.toList) : set = other := by
  have sameEntries : set.entries = other.entries := by
    rw [entries_eq set, entries_eq other, same]
  cases set
  cases other
  cases sameEntries
  rfl

theorem toList_insert : (set.insert item).toList =
    set.toList ++ if set.contains item then [] else [item] := by
  rw [insert]
  split
  · rw [List.append_nil]
  · rw [toList, List.map_append]
    rfl

theorem toList_filter {keep : Item → Bool} :
    (set.filter keep).toList = set.toList.filter keep := by
  simp only [toList, filter, List.filter_map]
  rfl

theorem toList_filterKeys {keep : String → Bool} :
    (set.filterKeys keep).toList = set.toList.filter fun item => keep (Keyed.key item) := by
  simp only [toList, filterKeys, List.filter_map]
  congr 1
  refine List.filter_congr fun entry entryMem => ?_
  rw [Function.comp_apply, ← set.keyed entry entryMem]

theorem toList_minus : (set.minus other).toList =
    set.toList.filter fun item => !other.contains item :=
  toList_filterKeys

/-- What a union adds are the members of the second set that the first does not contain. -/
theorem toList_union : (set.union other).toList =
    set.toList ++ other.toList.filter fun item => !set.contains item := by
  have others : (other.filterKeys fun key => !set.hasKey key).toList =
      other.toList.filter fun item => !set.contains item := toList_filterKeys
  rw [← others]
  simp only [union, toList, filterKeys, List.map_append]

theorem find?_eq : set.find? key = set.toList.find? fun item => Keyed.key item == key := by
  have found : (set.filterKeys fun other => other == key).toList =
      set.toList.filter fun item => Keyed.key item == key := toList_filterKeys
  rw [find?, ← List.head?_filter, ← List.head?_filter, ← found, toList, filterKeys, List.head?_map]

/-! ### Members -/

theorem mem_keys : key ∈ set.keys ↔ ∃ member ∈ set.toList, Keyed.key member = key := by
  simp only [keys, toList, List.mem_map]
  constructor
  · rintro ⟨entry, entryMem, rfl⟩
    exact ⟨entry.2, ⟨entry, entryMem, rfl⟩, (set.keyed entry entryMem).symm⟩
  · rintro ⟨_, ⟨entry, entryMem, rfl⟩, rfl⟩
    exact ⟨entry, entryMem, set.keyed entry entryMem⟩

theorem key_mem_keys (isMember : member ∈ set.toList) : Keyed.key member ∈ set.keys :=
  mem_keys.2 ⟨member, isMember, rfl⟩

theorem contains_iff : set.contains item = true ↔ Keyed.key item ∈ set.keys := by
  rw [contains, hasKey_iff]

/-- Members are told apart by their keys. -/
theorem eq_of_key_eq (isMember : member ∈ set.toList) (isItem : item ∈ set.toList)
    (same : Keyed.key member = Keyed.key item) : member = item := by
  simp only [toList, List.mem_map] at isMember isItem
  rcases isMember with ⟨entry, entryMem, rfl⟩
  rcases isItem with ⟨entry', entryMem', rfl⟩
  have sameKey : entry.1 = entry'.1 := by
    rw [set.keyed entry entryMem, set.keyed entry' entryMem', same]
  rw [List.inj_on_of_nodup_map set.distinct entryMem entryMem' sameKey]

@[simp]
theorem toList_empty : (empty : KeyedSet Item).toList = [] := rfl

@[simp]
theorem keys_empty : (empty : KeyedSet Item).keys = [] := rfl

theorem mem_filterKeys {keep : String → Bool} :
    member ∈ (set.filterKeys keep).toList ↔
      member ∈ set.toList ∧ keep (Keyed.key member) = true := by
  rw [toList_filterKeys, List.mem_filter]

theorem mem_filter {keep : Item → Bool} :
    member ∈ (set.filter keep).toList ↔ member ∈ set.toList ∧ keep member = true := by
  rw [toList_filter, List.mem_filter]

theorem mem_minus :
    member ∈ (set.minus other).toList ↔ member ∈ set.toList ∧ Keyed.key member ∉ other.keys := by
  rw [minus, mem_filterKeys, Bool.not_eq_true', ← Bool.not_eq_true, hasKey_iff]

/-- Taking away the members that a predicate holds for leaves the others. -/
theorem mem_minus_filter {drop : Item → Bool} :
    member ∈ (set.minus (set.filter drop)).toList ↔ member ∈ set.toList ∧ drop member = false := by
  rw [mem_minus]
  refine and_congr_right fun isMember => ?_
  constructor
  · intro absent
    rw [← Bool.not_eq_true]
    intro dropped
    exact absent (key_mem_keys (mem_filter.2 ⟨isMember, dropped⟩))
  · intro kept isKey
    rcases mem_keys.1 isKey with ⟨found, isFound, sameKey⟩
    rcases mem_filter.1 isFound with ⟨foundMember, dropped⟩
    rw [eq_of_key_eq foundMember isMember sameKey, kept] at dropped
    cases dropped

theorem mem_union :
    member ∈ (set.union other).toList ↔
      member ∈ set.toList ∨ member ∈ other.toList ∧ Keyed.key member ∉ set.keys := by
  rw [toList_union, List.mem_append, List.mem_filter, Bool.not_eq_true', ← Bool.not_eq_true,
    contains_iff]

theorem mem_keys_union : key ∈ (set.union other).keys ↔ key ∈ set.keys ∨ key ∈ other.keys := by
  constructor
  · intro isKey
    rcases mem_keys.1 isKey with ⟨member, isMember, rfl⟩
    rcases mem_union.1 isMember with isMember | ⟨isMember, -⟩
    · exact .inl (key_mem_keys isMember)
    · exact .inr (key_mem_keys isMember)
  · intro isKey
    by_cases inSet : key ∈ set.keys
    · rcases mem_keys.1 inSet with ⟨member, isMember, rfl⟩
      exact key_mem_keys (mem_union.2 (.inl isMember))
    · rcases mem_keys.1 (isKey.resolve_left inSet) with ⟨member, isMember, rfl⟩
      exact key_mem_keys (mem_union.2 (.inr ⟨isMember, inSet⟩))

theorem mem_keys_minus :
    key ∈ (set.minus other).keys ↔ key ∈ set.keys ∧ key ∉ other.keys := by
  constructor
  · intro isKey
    rcases mem_keys.1 isKey with ⟨member, isMember, rfl⟩
    rcases mem_minus.1 isMember with ⟨isMember, absent⟩
    exact ⟨key_mem_keys isMember, absent⟩
  · rintro ⟨isKey, absent⟩
    rcases mem_keys.1 isKey with ⟨member, isMember, rfl⟩
    exact key_mem_keys (mem_minus.2 ⟨isMember, absent⟩)

theorem mem_insert :
    member ∈ (set.insert item).toList ↔
      member ∈ set.toList ∨ member = item ∧ Keyed.key item ∉ set.keys := by
  rw [toList_insert, List.mem_append, ← contains_iff]
  refine or_congr_right ?_
  by_cases known : set.contains item = true <;> simp [known]

theorem mem_keys_insert : key ∈ (set.insert item).keys ↔ key ∈ set.keys ∨ key = Keyed.key item := by
  rw [insert]
  split
  · next present =>
      rw [contains_iff] at present
      constructor
      · exact .inl
      · rintro (isKey | rfl)
        · exact isKey
        · exact present
  · simp [keys]

theorem mem_extend {items : List Item} (isMember : member ∈ (set.extend items).toList) :
    member ∈ set.toList ∨ member ∈ items := by
  induction items generalizing set with
  | nil => exact .inl isMember
  | cons item rest ih =>
      rcases ih isMember with inserted | later
      · rcases mem_insert.1 inserted with early | ⟨rfl, -⟩
        · exact .inl early
        · exact .inr List.mem_cons_self
      · exact .inr (List.mem_cons_of_mem _ later)

/-- What is added has a key that was not there before. -/
theorem mem_or_fresh_of_mem_extend {items : List Item}
    (isMember : member ∈ (set.extend items).toList) :
    member ∈ set.toList ∨ member ∈ items ∧ Keyed.key member ∉ set.keys := by
  induction items generalizing set with
  | nil => exact .inl isMember
  | cons item rest ih =>
      rcases ih isMember with inserted | ⟨later, absent⟩
      · rcases mem_insert.1 inserted with early | ⟨rfl, absent⟩
        · exact .inl early
        · exact .inr ⟨List.mem_cons_self, absent⟩
      · exact .inr ⟨List.mem_cons_of_mem _ later,
          fun isKey => absent (mem_keys_insert.2 (.inl isKey))⟩

theorem mem_extend_of_mem {items : List Item} (isMember : member ∈ set.toList) :
    member ∈ (set.extend items).toList := by
  induction items generalizing set with
  | nil => exact isMember
  | cons item rest ih => exact ih (mem_insert.2 (.inl isMember))

theorem mem_keys_extend {items : List Item} :
    key ∈ (set.extend items).keys ↔ key ∈ set.keys ∨ key ∈ items.map Keyed.key := by
  induction items generalizing set with
  | nil => simp [extend]
  | cons item rest ih =>
      have step : key ∈ (set.extend (item :: rest)).keys ↔
          key ∈ (set.insert item).keys ∨ key ∈ rest.map Keyed.key := ih
      rw [step, mem_keys_insert, List.map_cons, List.mem_cons, or_assoc]

theorem mem_ofList {items : List Item} (isMember : member ∈ (ofList items).toList) :
    member ∈ items :=
  (mem_extend isMember).resolve_left List.not_mem_nil

theorem mem_keys_ofList {items : List Item} : key ∈ (ofList items).keys ↔
    key ∈ items.map Keyed.key := by
  rw [ofList, mem_keys_extend, keys_empty, or_iff_right List.not_mem_nil]

theorem nodup_keys (set : KeyedSet Item) : set.keys.Nodup :=
  set.distinct

theorem map_key_toList (set : KeyedSet Item) : set.toList.map Keyed.key = set.keys := by
  rw [toList, keys, List.map_map]
  exact List.map_congr_left fun entry entryMem => (set.keyed entry entryMem).symm

theorem isSubset_iff : set.isSubset other = true ↔ ∀ key ∈ set.keys, key ∈ other.keys := by
  simp only [isSubset, List.all_eq_true, hasKey_iff]

theorem mem_keys_of_sameKeys (same : set.sameKeys other = true) :
    key ∈ set.keys ↔ key ∈ other.keys := by
  rw [sameKeys, Bool.and_eq_true, beq_iff_eq, isSubset_iff] at same
  rcases same with ⟨sameSize, inside⟩
  have subset : set.keys ⊆ other.keys := inside
  have sameLength : other.keys.length ≤ set.keys.length := by
    simp only [keys, List.length_map]
    exact Nat.le_of_eq sameSize.symm
  have perm := (List.Nodup.subperm set.nodup_keys subset).perm_of_length_le sameLength
  exact perm.mem_iff

/-- Sets are the same if they have the same keys, in whatever order. -/
theorem sameKeys_iff :
    set.sameKeys other = true ↔ ∀ key, key ∈ set.keys ↔ key ∈ other.keys := by
  constructor
  · exact fun same key => mem_keys_of_sameKeys same
  · intro same
    have perm : set.keys.Perm other.keys :=
      (List.perm_ext_iff_of_nodup set.nodup_keys other.nodup_keys).2 same
    have sameSize : set.size = other.size := by
      simpa only [size, keys, List.length_map] using perm.length_eq
    rw [sameKeys, Bool.and_eq_true, beq_iff_eq, isSubset_iff]
    exact ⟨sameSize, fun key => (same key).1⟩

/-! ### Sets with the same keys -/

theorem sameKeys_equivalence :
    Equivalence fun set other : KeyedSet Item => set.sameKeys other = true where
  refl _ := sameKeys_iff.2 fun _ => Iff.rfl
  symm same := sameKeys_iff.2 fun key => (sameKeys_iff.1 same key).symm
  trans first second := sameKeys_iff.2 fun key =>
    (sameKeys_iff.1 first key).trans (sameKeys_iff.1 second key)

theorem sameKeys_iff_perm : set.sameKeys other = true ↔ set.keys.Perm other.keys := by
  rw [sameKeys_iff, List.perm_ext_iff_of_nodup set.nodup_keys other.nodup_keys]

/-! ### Items added one after the other -/

/-- Of items with distinct keys, those are added that are not contained. -/
theorem toList_extend {items : List Item} (distinct : (items.map Keyed.key).Nodup) :
    (set.extend items).toList = set.toList ++ items.filter fun item => !set.contains item := by
  induction items generalizing set with
  | nil => simp [extend]
  | cons item rest ih =>
      rw [List.map_cons, List.nodup_cons] at distinct
      have others : rest.filter (fun other => !(set.insert item).contains other) =
          rest.filter fun other => !set.contains other := by
        refine List.filter_congr fun other isOther => ?_
        have differs : Keyed.key other ≠ Keyed.key item :=
          fun same => distinct.1 (same ▸ List.mem_map_of_mem isOther)
        rw [Bool.eq_iff_iff, Bool.not_eq_true', Bool.not_eq_true', ← Bool.not_eq_true,
          ← Bool.not_eq_true, contains_iff, contains_iff, mem_keys_insert, or_iff_left differs]
      have step : (set.extend (item :: rest)).toList = ((set.insert item).extend rest).toList := rfl
      rw [step, ih distinct.2, others, toList_insert, List.append_assoc, List.filter_cons]
      by_cases known : set.contains item = true <;> simp [known]

/-- A union is what remains of adding the members of the second set one after the other. -/
theorem union_eq_extend : set.union other = set.extend other.toList := by
  apply ext_toList
  rw [toList_union, toList_extend]
  rw [map_key_toList]
  exact other.nodup_keys

theorem extend_append {items later : List Item} :
    set.extend (items ++ later) = (set.extend items).extend later :=
  List.foldl_append

/-- The union of a list of sets adds their members one after the other. -/
theorem unionAll_eq_ofList {sets : List (KeyedSet Item)} :
    unionAll sets = ofList (sets.flatMap toList) := by
  have from_set (start : KeyedSet Item) :
      sets.foldl union start = start.extend (sets.flatMap toList) := by
    induction sets generalizing start with
    | nil => rfl
    | cons first rest ih =>
        rw [List.foldl_cons, ih, List.flatMap_cons, extend_append, union_eq_extend]
  exact from_set empty

/-- The union with a set, less that set, has the other members in their order. -/
theorem toList_union_minus : ((set.union other).minus other).toList =
    set.toList.filter fun item => !other.contains item := by
  have added : (other.toList.filter fun item => !set.contains item).filter
      (fun item => !other.contains item) = [] := by
    refine List.filter_eq_nil_iff.2 fun item isAdded => ?_
    rw [Bool.not_eq_true', Bool.not_eq_false, contains_iff]
    exact key_mem_keys (List.mem_filter.1 isAdded).1
  rw [toList_minus, toList_union, List.filter_append, added, List.append_nil]

end KeyedSet

end FlowAnalysis
