import FlowAnalysis.Proofs.Json.Distinct

/-!
# Numbers in a value

What holds of all numbers in a value holds of those in its items and members.
-/

namespace FlowAnalysis

namespace Json

/-- All numbers in a value are as described. -/
inductive AllNumbers (described : Number → Prop) : Json → Prop where
  | null : AllNumbers described .null
  | bool (value : Bool) : AllNumbers described (.bool value)
  | number {value : Number} (isDescribed : described value) : AllNumbers described (.number value)
  | string (text : String) : AllNumbers described (.string text)
  | array {items : List Json} (inItems : ∀ item ∈ items, AllNumbers described item) :
      AllNumbers described (.array items)
  | object {members : List (String × Json)}
      (inMembers : ∀ entry ∈ members, AllNumbers described entry.2) :
      AllNumbers described (.object members)

theorem AllNumbers.mono {described described' : Number → Prop} {value : Json}
    (all : value.AllNumbers described) (weaker : ∀ number, described number → described' number) :
    value.AllNumbers described' := by
  induction all with
  | null => exact .null
  | bool value => exact .bool value
  | number isDescribed => exact .number (weaker _ isDescribed)
  | string text => exact .string text
  | array _ ih => exact .array ih
  | object _ ih => exact .object ih

theorem AllNumbers.and {described described' : Number → Prop} {value : Json}
    (all : value.AllNumbers described) (all' : value.AllNumbers described') :
    value.AllNumbers fun number => described number ∧ described' number := by
  induction all with
  | null => exact .null
  | bool value => exact .bool value
  | number isDescribed =>
      rcases all' with ⟨⟩
      next isDescribed' => exact .number ⟨isDescribed, isDescribed'⟩
  | string text => exact .string text
  | array _ ih =>
      rcases all' with ⟨⟩
      next inItems => exact .array fun item isItem => ih item isItem (inItems item isItem)
  | object _ ih =>
      rcases all' with ⟨⟩
      next inMembers =>
        exact .object fun entry isEntry => ih entry isEntry (inMembers entry isEntry)

section

variable {described : Number → Prop}

@[simp]
theorem allNumbers_null : null.AllNumbers described :=
  .null

@[simp]
theorem allNumbers_bool (value : Bool) : (bool value).AllNumbers described :=
  .bool value

@[simp]
theorem allNumbers_string (text : String) : (string text).AllNumbers described :=
  .string text

@[simp]
theorem allNumbers_optionalString (text : Option String) :
    (optionalString text).AllNumbers described := by
  cases text with
  | none => exact .null
  | some text => exact .string text

@[simp]
theorem allNumbers_number_iff {value : Number} :
    (number value).AllNumbers described ↔ described value := by
  constructor
  · rintro ⟨⟩
    assumption
  · exact .number

@[simp]
theorem allNumbers_array_iff {items : List Json} :
    (array items).AllNumbers described ↔ ∀ item ∈ items, item.AllNumbers described := by
  constructor
  · rintro ⟨⟩
    assumption
  · exact .array

@[simp]
theorem allNumbers_object_iff {members : List (String × Json)} :
    (object members).AllNumbers described ↔ ∀ entry ∈ members, entry.2.AllNumbers described := by
  constructor
  · rintro ⟨⟩
    assumption
  · exact .object

end

namespace AllNumbers

variable {described : Number → Prop} {value : Json} {members : List (String × Json)}

theorem noItems : (Json.array []).AllNumbers described :=
  .array (by simp)

theorem noMembers : (Json.object []).AllNumbers described :=
  .object (by simp)

theorem of_members? (all : value.AllNumbers described) (isObject : value.members? = some members) :
    ∀ entry ∈ members, entry.2.AllNumbers described := by
  cases all with
  | object inMembers =>
      rcases isObject with ⟨⟩
      exact inMembers
  | null | bool | number | string | array => cases isObject

theorem of_record? {keys : List String} (all : value.AllNumbers described)
    (isRecord : value.record? keys = some members) :
    ∀ entry ∈ members, entry.2.AllNumbers described := by
  cases all with
  | object inMembers =>
      rcases isRecord with ⟨⟩
      exact inMembers
  | array inItems =>
      rw [record?] at isRecord
      split at isRecord
      · rcases isRecord with ⟨⟩
        exact fun entry isMember => inItems _ (List.of_mem_zip isMember).2
      · cases isRecord
  | null | bool | number | string => cases isRecord

theorem of_optional? {key : String} {found : Option Json} {default : Json}
    (all : ∀ entry ∈ members, entry.2.AllNumbers described)
    (isFound : optional? members key = some found) (inDefault : default.AllNumbers described) :
    (found.getD default).AllNumbers described := by
  cases found with
  | none => exact inDefault
  | some value => exact all _ (mem_of_optional? isFound)

theorem of_listOf? {Item : Type} {read : Json → Option Item} {items : List Item}
    (all : value.AllNumbers described) (reads : listOf? read value = some items) :
    ∀ item ∈ items, ∃ value : Json, value.AllNumbers described ∧ read value = some item := by
  rcases Option.bind_eq_some_iff.1 reads with ⟨values, areValues, reads⟩
  intro item isItem
  rcases exists_read_of_mapM reads item isItem with ⟨inner, isValue, isRead⟩
  cases all with
  | array inItems =>
      rcases areValues with ⟨⟩
      exact ⟨inner, inItems inner isValue, isRead⟩
  | null | bool | number | string | object => cases areValues

end AllNumbers

end Json

end FlowAnalysis
