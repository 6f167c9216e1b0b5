/-!
# Insertion-ordered sets of keyed items

Membership in a `KeyedSet` is decided by the key of an item. The first item with a key stays, and
the order is that of insertion. Two sets have the same members when they have the same keys,
whatever the order.
-/

namespace FlowAnalysis

/-- Items that are identified by a text. -/
class Keyed (Item : Type) where
  key : Item → String

/-- Items with distinct keys in insertion order, each stored beside its key. -/
structure KeyedSet (Item : Type) [Keyed Item] where
  entries : List (String × Item)
  keyed : ∀ entry ∈ entries, entry.1 = Keyed.key entry.2
  distinct : (entries.map Prod.fst).Nodup

namespace KeyedSet

variable {Item : Type} [Keyed Item]

/-- The set without members. -/
def empty : KeyedSet Item :=
  { entries := [], keyed := by simp, distinct := by simp }

instance : Inhabited (KeyedSet Item) := ⟨empty⟩

/-- The members in order. -/
def toList (set : KeyedSet Item) : List Item :=
  set.entries.map Prod.snd

/-- The keys in order. -/
def keys (set : KeyedSet Item) : List String :=
  set.entries.map Prod.fst

/-- The number of members. -/
def size (set : KeyedSet Item) : Nat :=
  set.entries.length

/-- Whether the set has no members. -/
def isEmpty (set : KeyedSet Item) : Bool :=
  set.entries.isEmpty

/-- Whether a member has the given key. -/
def hasKey (set : KeyedSet Item) (key : String) : Bool :=
  set.entries.any fun entry => entry.1 == key

/-- Whether a member has the key of the given item. -/
def contains (set : KeyedSet Item) (item : Item) : Bool :=
  set.hasKey (Keyed.key item)

/-- The member with a given key. -/
def find? (set : KeyedSet Item) (key : String) : Option Item :=
  (set.entries.find? fun entry => entry.1 == key).map Prod.snd

theorem hasKey_iff (set : KeyedSet Item) (key : String) :
    set.hasKey key = true ↔ key ∈ set.keys := by
  simp [hasKey, keys]

/-- Adds an item at the end unless its key is already there. -/
def insert (set : KeyedSet Item) (item : Item) : KeyedSet Item :=
  if present : set.contains item then set
  else
    { entries := set.entries ++ [(Keyed.key item, item)]
      keyed := by
        intro entry member
        rcases List.mem_append.1 member with member | member
        · exact set.keyed entry member
        · rw [List.mem_singleton.1 member]
      distinct := by
        rw [contains, hasKey_iff, keys] at present
        rw [List.map_append, List.nodup_append]
        refine ⟨set.distinct, by simp, ?_⟩
        intro key member other otherMember
        simp only [List.map_cons, List.map_nil, List.mem_singleton] at otherMember
        subst otherMember
        exact fun same => present (same ▸ member) }

/-- The members that a predicate holds for. -/
def filter (set : KeyedSet Item) (keep : Item → Bool) : KeyedSet Item :=
  { entries := set.entries.filter fun entry => keep entry.2
    keyed := fun entry member => set.keyed entry (List.mem_filter.1 member).1
    distinct := set.distinct.sublist ((List.filter_sublist).map Prod.fst) }

/-- The members whose keys a predicate holds for. -/
def filterKeys (set : KeyedSet Item) (keep : String → Bool) : KeyedSet Item :=
  { entries := set.entries.filter fun entry => keep entry.1
    keyed := fun entry member => set.keyed entry (List.mem_filter.1 member).1
    distinct := set.distinct.sublist ((List.filter_sublist).map Prod.fst) }

/-- Removes the member with the key of the given item. -/
def erase (set : KeyedSet Item) (item : Item) : KeyedSet Item :=
  set.filterKeys fun key => key != Keyed.key item

/-- Adds the items of a list one after the other. -/
def extend (set : KeyedSet Item) (items : List Item) : KeyedSet Item :=
  items.foldl insert set

/-- The set of the items of a list. -/
def ofList (items : List Item) : KeyedSet Item :=
  extend empty items

/-- The members of the first set, followed by those of the second with other keys. -/
def union (set other : KeyedSet Item) : KeyedSet Item :=
  { entries := set.entries ++ other.entries.filter fun entry => !set.hasKey entry.1
    keyed := by
      intro entry member
      rcases List.mem_append.1 member with member | member
      · exact set.keyed entry member
      · exact other.keyed entry (List.mem_filter.1 member).1
    distinct := by
      rw [List.map_append, List.nodup_append]
      refine ⟨set.distinct, other.distinct.sublist ((List.filter_sublist).map Prod.fst), ?_⟩
      intro key member otherKey otherMember same
      subst same
      obtain ⟨entry, entryMember, rfl⟩ := List.mem_map.1 otherMember
      have absent := (List.mem_filter.1 entryMember).2
      simp only [Bool.not_eq_true', ← Bool.not_eq_true, hasKey_iff, keys] at absent
      exact absent member }

/-- The union of a list of sets, from left to right. -/
def unionAll (sets : List (KeyedSet Item)) : KeyedSet Item :=
  sets.foldl union empty

/-- The members of the first set whose keys the second does not have. -/
def minus (set other : KeyedSet Item) : KeyedSet Item :=
  set.filterKeys fun key => !other.hasKey key

/-- Whether every key of the first set is one of the second. -/
def isSubset (set other : KeyedSet Item) : Bool :=
  set.keys.all other.hasKey

/-- Whether two sets have the same keys. -/
def sameKeys (set other : KeyedSet Item) : Bool :=
  set.size == other.size && set.isSubset other

end KeyedSet

end FlowAnalysis
