import FlowAnalysis.Proofs.Json.Numbers

/-!
# Values that cover others

A value covers another one that nests no deeper and has no further numbers. What is read from a
value and written again is covered by it if this holds of its parts, and if what is written for
missing members neither nests nor has numbers.
-/

namespace FlowAnalysis

namespace Json

/-- A value is at least as deep as another one and has all numbers that stand in it. -/
structure Covers (source value : Json) : Prop where
  depth : value.depth ≤ source.depth
  numbers : ∀ {described : Number → Prop}, source.AllNumbers described → value.AllNumbers described

theorem Covers.refl (value : Json) : value.Covers value :=
  ⟨Nat.le_refl _, id⟩

/-- What neither nests nor has numbers is covered by everything. -/
theorem Covers.of_null {source value : Json} (covers : Json.null.Covers value) :
    source.Covers value :=
  ⟨Nat.le_trans covers.depth (Nat.zero_le _), fun _ => covers.numbers .null⟩

theorem null_covers_bool (value : Bool) : null.Covers (.bool value) :=
  ⟨Nat.le_refl _, fun _ => .bool value⟩

theorem null_covers_string (text : String) : null.Covers (.string text) :=
  ⟨Nat.le_refl _, fun _ => .string text⟩

theorem null_covers_optionalString (text : Option String) : null.Covers (optionalString text) := by
  cases text with
  | none => exact .refl null
  | some text => exact null_covers_string text

theorem covers_array {sources items : List Json}
    (inItems : ∀ item ∈ items, ∃ source ∈ sources, source.Covers item) :
    (array sources).Covers (.array items) := by
  constructor
  · rw [depth, depth, Nat.add_le_add_iff_left, depthItems_le_iff]
    intro item isItem
    rcases inItems item isItem with ⟨source, isSource, covers⟩
    exact Nat.le_trans covers.depth (depth_le_depthItems isSource)
  · intro described all
    rw [allNumbers_array_iff] at all ⊢
    intro item isItem
    rcases inItems item isItem with ⟨source, isSource, covers⟩
    exact covers.numbers (all source isSource)

section

variable {Item : Type} {read : Json → Option Item} {write : Item → Json} {source : Json}

theorem covers_of_listOf? {items : List Item}
    (covers : ∀ {inner item}, read inner = some item → inner.Covers (write item))
    (reads : listOf? read source = some items) : source.Covers (.array (items.map write)) := by
  rcases Option.bind_eq_some_iff.1 reads with ⟨values, areItems, reads⟩
  have isArray : source = .array values := by
    cases source <;> rcases areItems with ⟨⟩
    rfl
  subst isArray
  apply covers_array
  rw [List.forall_mem_map]
  intro item isItem
  rcases exists_read_of_mapM reads item isItem with ⟨inner, isValue, isRead⟩
  exact ⟨inner, isValue, covers isRead⟩

/-- What is written for a member of a record: it is covered by a member, or it neither nests nor has
numbers. -/
def InRecord (members : List (String × Json)) (value : Json) : Prop :=
  null.Covers value ∨ ∃ entry ∈ members, entry.2.Covers value

variable {members : List (String × Json)} {key : String} {value : Json}

theorem inRecord_of_required? (isFound : required? members key = some source)
    (covers : source.Covers value) : InRecord members value :=
  .inr ⟨_, mem_of_required? isFound, covers⟩

theorem inRecord_of_optional? {found : Option Json} (isFound : optional? members key = some found)
    (covers : (found.getD .null).Covers value) : InRecord members value := by
  cases found with
  | none => exact .inl covers
  | some source => exact .inr ⟨_, mem_of_optional? isFound, covers⟩

theorem covers_of_record? {keys : List String} (isRecord : source.record? keys = some members)
    {written : List (String × Json)} (inRecord : ∀ entry ∈ written, InRecord members entry.2) :
    source.Covers (.object written) := by
  have inSource : ∀ entry ∈ members, entry.2.depth + 1 ≤ source.depth := by
    intro entry isMember
    cases source with
    | object =>
        rcases isRecord with ⟨⟩
        have := depth_le_depthMembers isMember
        rw [depth]
        omega
    | array =>
        rw [record?] at isRecord
        split at isRecord
        · rcases isRecord with ⟨⟩
          have := depth_le_depthItems (List.of_mem_zip isMember).2
          rw [depth]
          omega
        · cases isRecord
    | null | bool | number | string => cases isRecord
  have nests : 1 ≤ source.depth := by
    cases source with
    | object | array =>
        rw [depth]
        omega
    | null | bool | number | string => cases isRecord
  constructor
  · have inner : depth.depthMembers written ≤ source.depth - 1 := by
      rw [depthMembers_le_iff]
      intro entry isEntry
      rcases inRecord entry isEntry with covers | ⟨member, isMember, covers⟩
      · exact Nat.le_trans covers.depth (Nat.zero_le _)
      · have := inSource member isMember
        have := covers.depth
        omega
    rw [depth]
    omega
  · intro described all
    have inMembers := AllNumbers.of_record? all isRecord
    rw [allNumbers_object_iff]
    intro entry isEntry
    rcases inRecord entry isEntry with covers | ⟨member, isMember, covers⟩
    · exact covers.numbers .null
    · exact covers.numbers (inMembers member isMember)

end

/-! ### Merging -/

mutual

theorem covers_merged : ∀ value : Json, value.Covers value.merged
  | .null => .refl _
  | .bool _ => .refl _
  | .number _ => .refl _
  | .string _ => .refl _
  | .array items => covers_array (exists_covers_mergedItems items)
  | .object members => by
      have inMembers := exists_covers_mergedMembers members
      have isRecord : (Json.object members).record? [] = some members := rfl
      apply covers_of_record? isRecord
      intro entry isEntry
      exact .inr (inMembers entry (Dictionary.mem_of_mem_ofEntries isEntry))

theorem exists_covers_mergedItems : ∀ items : List Json, ∀ item ∈ mergedItems items,
    ∃ inner ∈ items, inner.Covers item
  | [] => by simp [mergedItems]
  | item :: rest => by
      rw [mergedItems, List.forall_mem_cons]
      refine ⟨⟨item, List.mem_cons_self, covers_merged item⟩, fun other isOther => ?_⟩
      rcases exists_covers_mergedItems rest other isOther with ⟨inner, isInner, covers⟩
      exact ⟨inner, List.mem_cons_of_mem _ isInner, covers⟩

theorem exists_covers_mergedMembers : ∀ members : List (String × Json),
    ∀ entry ∈ mergedMembers members, ∃ inner ∈ members, inner.2.Covers entry.2
  | [] => by simp [mergedMembers]
  | (key, value) :: rest => by
      rw [mergedMembers, List.forall_mem_cons]
      refine ⟨⟨(key, value), List.mem_cons_self, covers_merged value⟩, fun other isOther => ?_⟩
      rcases exists_covers_mergedMembers rest other isOther with ⟨inner, isInner, covers⟩
      exact ⟨inner, List.mem_cons_of_mem _ isInner, covers⟩

end

end Json

end FlowAnalysis
