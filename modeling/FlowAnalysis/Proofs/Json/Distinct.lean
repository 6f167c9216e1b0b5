import FlowAnalysis.Json.Basic
import Mathlib.Data.List.Nodup

/-!
# Objects with each key once

A dictionary that is made of entries with different keys is the list of these entries, and every
dictionary has different keys. So a value in which every object has each key once is what reading it
as a dictionary at every level makes of it. In such an object, a record reader finds what stands
under a key.
-/

namespace FlowAnalysis

namespace Dictionary

variable {Value : Type} {dictionary : Dictionary Value} {key : String} {value : Value}

theorem insert_of_notMem (isNew : key ∉ dictionary.keys) :
    dictionary.insert key value = dictionary ++ [(key, value)] := by
  induction dictionary with
  | nil => rfl
  | cons entry rest ih =>
      simp only [keys, List.map_cons, List.mem_cons, not_or] at isNew ih
      simp [insert, Ne.symm isNew.1, ih isNew.2]

theorem extend_of_nodup {additions : Dictionary Value}
    (distinct : (dictionary ++ additions).keys.Nodup) :
    dictionary.extend additions = dictionary ++ additions := by
  induction additions generalizing dictionary with
  | nil => simp [extend]
  | cons entry rest ih =>
      have isNew : entry.1 ∉ dictionary.keys := by
        intro isKey
        simp only [keys, List.map_append, List.map_cons] at distinct isKey
        exact (List.nodup_append.1 distinct).2.2 _ isKey _ List.mem_cons_self rfl
      have inserted : dictionary.insert entry.1 entry.2 = dictionary ++ [entry] :=
        insert_of_notMem isNew
      have step : dictionary.extend (entry :: rest) =
        (dictionary.insert entry.1 entry.2).extend rest := rfl
      rw [step, inserted, ih (by simpa using distinct)]
      simp

theorem ofEntries_of_nodup {entries : Dictionary Value} (distinct : entries.keys.Nodup) :
    ofEntries entries = entries := by
  apply extend_of_nodup
  simpa using distinct

theorem nodup_keys_extend {additions : Dictionary Value} (distinct : dictionary.keys.Nodup) :
    (dictionary.extend additions).keys.Nodup := by
  induction additions generalizing dictionary with
  | nil => exact distinct
  | cons entry rest ih =>
      apply ih
      rw [keys_insert]
      split
      · exact distinct
      · next isNew => exact List.nodup_append_comm.1 (by simpa using ⟨isNew, distinct⟩)

theorem nodup_keys_ofEntries (entries : Dictionary Value) : (ofEntries entries).keys.Nodup :=
  nodup_keys_extend List.nodup_nil

theorem mem_of_mem_insert {entry : String × Value}
    (isMember : entry ∈ dictionary.insert key value) :
    entry = (key, value) ∨ entry ∈ dictionary := by
  induction dictionary with
  | nil => simpa [insert] using isMember
  | cons first rest ih =>
      rw [insert] at isMember
      split at isMember
      · simp only [List.mem_cons] at isMember ⊢
        tauto
      · rcases List.mem_cons.1 isMember with rfl | isMember
        · simp
        · exact (ih isMember).imp_right (List.mem_cons_of_mem _)

theorem mem_of_mem_extend {additions : Dictionary Value} {entry : String × Value}
    (isMember : entry ∈ dictionary.extend additions) : entry ∈ dictionary ∨ entry ∈ additions := by
  induction additions generalizing dictionary with
  | nil => exact .inl isMember
  | cons first rest ih =>
      rcases ih isMember with isMember | isMember
      · rcases mem_of_mem_insert isMember with rfl | isMember
        · simp
        · exact .inl isMember
      · simp [isMember]

theorem mem_of_mem_ofEntries {entries : Dictionary Value} {entry : String × Value}
    (isMember : entry ∈ ofEntries entries) : entry ∈ entries := by
  simpa using mem_of_mem_extend isMember

end Dictionary

namespace Json

/-- Every object in a value has each key once. -/
inductive Distinct : Json → Prop where
  | null : Distinct .null
  | bool (value : Bool) : Distinct (.bool value)
  | number (value : Number) : Distinct (.number value)
  | string (text : String) : Distinct (.string text)
  | array {items : List Json} (inItems : ∀ item ∈ items, Distinct item) : Distinct (.array items)
  | object {members : List (String × Json)} (keys : (Dictionary.keys members).Nodup)
      (inMembers : ∀ entry ∈ members, Distinct entry.2) : Distinct (.object members)

theorem mergedItems_eq_map (items : List Json) : mergedItems items = items.map merged := by
  induction items with
  | nil => rfl
  | cons item rest ih => simp [mergedItems, ih]

theorem mergedMembers_eq_map (members : List (String × Json)) :
    mergedMembers members = members.map fun entry => (entry.1, entry.2.merged) := by
  induction members with
  | nil => rfl
  | cons entry rest ih => simp [mergedMembers, ih]

theorem Distinct.merged_eq {value : Json} (distinct : value.Distinct) : value.merged = value := by
  induction distinct with
  | null | bool | number | string => rfl
  | array _ ih =>
      rw [merged, mergedItems_eq_map, List.map_congr_left ih, List.map_id']
  | @object members keys _ ih =>
      have same : ∀ entry ∈ members, (entry.1, entry.2.merged) = entry :=
        fun entry isMember => Prod.ext rfl (ih entry isMember)
      rw [merged, mergedMembers_eq_map, List.map_congr_left same, List.map_id',
        Dictionary.ofEntries_of_nodup keys]

mutual

theorem distinct_merged : ∀ value : Json, value.merged.Distinct
  | .null => .null
  | .bool value => .bool value
  | .number value => .number value
  | .string text => .string text
  | .array items => .array (distinct_mergedItems items)
  | .object members => by
      apply Distinct.object (Dictionary.nodup_keys_ofEntries _)
      intro entry isMember
      exact distinct_mergedMembers members entry (Dictionary.mem_of_mem_ofEntries isMember)

theorem distinct_mergedItems : ∀ items : List Json, ∀ item ∈ mergedItems items, item.Distinct
  | [] => by simp [mergedItems]
  | item :: rest => by
      rw [mergedItems, List.forall_mem_cons]
      exact ⟨distinct_merged item, distinct_mergedItems rest⟩

theorem distinct_mergedMembers : ∀ members : List (String × Json),
    ∀ entry ∈ mergedMembers members, entry.2.Distinct
  | [] => by simp [mergedMembers]
  | (_, value) :: rest => by
      rw [mergedMembers, List.forall_mem_cons]
      exact ⟨distinct_merged value, distinct_mergedMembers rest⟩

end

/-! ### Records -/

section

variable {members : List (String × Json)} {key : String} {value : Json}

theorem filter_key_of_mem (distinct : (Dictionary.keys members).Nodup)
    (isMember : (key, value) ∈ members) : members.filter (·.1 = key) = [(key, value)] := by
  induction members with
  | nil => exact absurd isMember List.not_mem_nil
  | cons entry rest ih =>
      rw [Dictionary.keys, List.map_cons, List.nodup_cons] at distinct
      have isKey : ∀ other ∈ rest, other.1 ∈ rest.map Prod.fst :=
        fun other isOther => List.mem_map_of_mem isOther
      rcases List.mem_cons.1 isMember with rfl | isMember
      · have noOther : ∀ other ∈ rest, ¬other.1 = key := by
          rintro other isOther rfl
          exact distinct.1 (isKey other isOther)
        simpa using noOther
      · have differs : entry.1 ≠ key := by
          rintro rfl
          exact distinct.1 (isKey (_, value) isMember)
        simp [differs, ih distinct.2 isMember]

theorem required?_of_mem (distinct : (Dictionary.keys members).Nodup)
    (isMember : (key, value) ∈ members) : required? members key = some value := by
  rw [required?, filter_key_of_mem distinct isMember]

theorem optional?_of_mem (distinct : (Dictionary.keys members).Nodup)
    (isMember : (key, value) ∈ members) : optional? members key = some (some value) := by
  rw [optional?, filter_key_of_mem distinct isMember]

theorem mem_of_filter_key_eq {entry : String × Json}
    (only : members.filter (·.1 = key) = [entry]) : (key, entry.2) ∈ members := by
  have isMember : entry ∈ members.filter (·.1 = key) := only ▸ List.mem_singleton_self entry
  rcases List.mem_filter.1 isMember with ⟨isMember, isKey⟩
  rwa [← of_decide_eq_true isKey]

theorem mem_of_required? (isFound : required? members key = some value) :
    (key, value) ∈ members := by
  rw [required?] at isFound
  split at isFound
  · next only =>
      rcases isFound with ⟨⟩
      exact mem_of_filter_key_eq only
  · cases isFound

theorem mem_of_optional? (isFound : optional? members key = some (some value)) :
    (key, value) ∈ members := by
  rw [optional?] at isFound
  split at isFound
  · cases isFound
  · next only =>
      rcases isFound with ⟨⟩
      exact mem_of_filter_key_eq only
  · cases isFound

end

/-! ### Lists -/

section

variable {Item : Type} {read : Json → Option Item} {write : Item → Json} {items : List Item}

theorem mapM_map_eq_some (readsBack : ∀ item ∈ items, read (write item) = some item) :
    (items.map write).mapM read = some items := by
  induction items with
  | nil => rfl
  | cons item rest ih =>
      rcases List.forall_mem_cons.1 readsBack with ⟨reads, readsRest⟩
      simp [List.mapM_cons, reads, ih readsRest]

theorem listOf?_array_map (readsBack : ∀ item ∈ items, read (write item) = some item) :
    listOf? read (.array (items.map write)) = some items :=
  mapM_map_eq_some readsBack

theorem exists_read_of_mapM {Source : Type} {read : Source → Option Item} {values : List Source}
    (reads : values.mapM read = some items) :
    ∀ item ∈ items, ∃ value ∈ values, read value = some item := by
  induction values generalizing items with
  | nil =>
      cases reads
      simp
  | cons value rest ih =>
      simp only [List.mapM_cons, Option.bind_eq_bind, Option.bind_eq_some_iff, Option.pure_def,
        Option.some.injEq] at reads
      rcases reads with ⟨first, isFirst, others, areOthers, rfl⟩
      rw [List.forall_mem_cons]
      refine ⟨⟨value, List.mem_cons_self, isFirst⟩, fun item isOther => ?_⟩
      rcases ih areOthers item isOther with ⟨value, isValue, isRead⟩
      exact ⟨value, List.mem_cons_of_mem _ isValue, isRead⟩

theorem exists_read_of_listOf? {value : Json} (reads : listOf? read value = some items) :
    ∀ item ∈ items, ∃ value, read value = some item := by
  rcases Option.bind_eq_some_iff.1 reads with ⟨values, -, reads⟩
  intro item isItem
  rcases exists_read_of_mapM reads item isItem with ⟨value, -, isRead⟩
  exact ⟨value, isRead⟩

end

/-! ### Depth -/

theorem depthItems_le_iff {items : List Json} {bound : Nat} :
    depth.depthItems items ≤ bound ↔ ∀ item ∈ items, item.depth ≤ bound := by
  induction items with
  | nil => simp [depth.depthItems]
  | cons item rest ih => rw [depth.depthItems, Nat.max_le, ih, List.forall_mem_cons]

theorem depthMembers_le_iff {members : List (String × Json)} {bound : Nat} :
    depth.depthMembers members ≤ bound ↔ ∀ entry ∈ members, entry.2.depth ≤ bound := by
  induction members with
  | nil => simp [depth.depthMembers]
  | cons entry rest ih => rw [depth.depthMembers, Nat.max_le, ih, List.forall_mem_cons]

theorem depth_le_depthItems {items : List Json} {item : Json} (isItem : item ∈ items) :
    item.depth ≤ depth.depthItems items :=
  depthItems_le_iff.1 (Nat.le_refl _) item isItem

theorem depth_le_depthMembers {members : List (String × Json)} {entry : String × Json}
    (isMember : entry ∈ members) : entry.2.depth ≤ depth.depthMembers members :=
  depthMembers_le_iff.1 (Nat.le_refl _) entry isMember

end Json

end FlowAnalysis
