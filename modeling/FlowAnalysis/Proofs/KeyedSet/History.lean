import FlowAnalysis.Proofs.KeyedSet
import Mathlib.Data.List.Induction
import Mathlib.Logic.Function.Basic
import Mathlib.Logic.Equiv.Defs

/-!
# Histories of keyed sets

What a set holds is told by its history: which items were inserted and which keys were removed, one
after the other. An insertion counts if the key was absent then and has not been removed since, and
the insertions that count are the members in order (`listing`).

Every operation on sets is one of these events or several of them, so whatever operations are
performed, each set lists what its history says, and all that can be asked of it is answered from
there (`run_realizes`).
-/

namespace FlowAnalysis

namespace KeyedSet

/-- What happens to a set. -/
inductive Event (Item : Type) where
  | inserted (item : Item)
  | removed (key : String)

/-! ### What a history lists -/

section

variable {Item : Type} {item : Item} {key : String} {before after : List (Event Item)}

/-- Whether a key is removed at some time. -/
def removes (history : List (Event Item)) (key : String) : Bool :=
  history.any fun event =>
    match event with
    | .inserted _ => false
    | .removed other => other == key

@[simp]
theorem removes_append :
    removes (before ++ after) key = (removes before key || removes after key) := by
  simp [removes]

@[simp]
theorem removes_inserted : removes [Event.inserted item] key = false := by
  simp [removes]

@[simp]
theorem removes_removed {other : String} :
    removes [(Event.removed other : Event Item)] key = (other == key) := by
  simp [removes]

end

variable {Item : Type} [Keyed Item] {set other : KeyedSet Item} {item : Item} {key : String}
  {before after history events : List (Event Item)}

/-- Whether a key is present in the end: it was inserted and not removed later. -/
def present : List (Event Item) → String → Bool
  | [], _ => false
  | .inserted item :: after, key =>
      (Keyed.key item == key && !removes after key) || present after key
  | .removed _ :: after, key => present after key

/-- The items that enter behind some events and are there in the end: those that are inserted at a
time at which their key is absent and whose key is not removed later. -/
def entering (before : List (Event Item)) : List (Event Item) → List Item
  | [] => []
  | .inserted item :: after =>
      if present before (Keyed.key item) || removes after (Keyed.key item) then
        entering (before ++ [.inserted item]) after
      else item :: entering (before ++ [.inserted item]) after
  | .removed key :: after => entering (before ++ [.removed key]) after

/-- The items that are there after a history, in the order in which they entered. -/
def listing (history : List (Event Item)) : List Item :=
  entering [] history

theorem present_inserted :
    present (history ++ [.inserted item]) key = (present history key || Keyed.key item == key) := by
  induction history with
  | nil => simp [present, removes]
  | cons event rest ih => cases event <;> simp [present, ih, Bool.or_assoc]

theorem present_removed {other : String} :
    present (history ++ [.removed other]) key = (present history key && !(other == key)) := by
  induction history with
  | nil => rfl
  | cons event rest ih =>
      cases event with
      | inserted item =>
          simp only [List.cons_append, present, ih, removes_append, removes_removed, Bool.not_or]
          rw [Bool.and_or_distrib_right, Bool.and_assoc]
      | removed key => exact ih

theorem entering_inserted : entering before (after ++ [.inserted item]) =
    entering before after ++ if present (before ++ after) (Keyed.key item) then [] else [item] := by
  induction after generalizing before with
  | nil => simp [entering, removes]
  | cons event rest ih =>
      cases event with
      | inserted first =>
          simp only [List.cons_append, entering, ih, removes_append, removes_inserted,
            Bool.or_false, List.append_assoc, List.nil_append]
          split <;> rfl
      | removed key =>
          simp only [List.cons_append, entering, ih, List.append_assoc, List.nil_append]

theorem entering_removed : entering before (after ++ [.removed key]) =
    (entering before after).filter fun item => Keyed.key item != key := by
  induction after generalizing before with
  | nil => rfl
  | cons event rest ih =>
      cases event with
      | inserted first =>
          simp only [List.cons_append, entering, ih, removes_append, removes_removed]
          by_cases isRemoved : key = Keyed.key first
          · -- The item is not there in the end; before the removal it may have been.
            subst isRemoved
            simp only [beq_self_eq_true, Bool.or_true, if_true]
            split
            · rfl
            · simp only [List.filter_cons, bne_self_eq_false, Bool.false_eq_true, if_false]
          · have stays : (key == Keyed.key first) = false := by simpa using isRemoved
            have kept : (Keyed.key first != key) = true := by simpa using Ne.symm isRemoved
            simp only [stays, Bool.or_false]
            split
            · rfl
            · simp only [List.filter_cons, kept, if_true]
      | removed other => simp only [List.cons_append, entering, ih]

theorem listing_inserted : listing (history ++ [.inserted item]) =
    listing history ++ if present history (Keyed.key item) then [] else [item] :=
  entering_inserted

theorem listing_removed : listing (history ++ [.removed key]) =
    (listing history).filter fun item => Keyed.key item != key :=
  entering_removed

/-- The keys that are present are listed. -/
theorem present_iff : present history key = true ↔ key ∈ (listing history).map Keyed.key := by
  induction history using List.reverseRecOn generalizing key with
  | nil => simp [present, listing, entering]
  | append_singleton history event ih =>
      cases event with
      | inserted item =>
          rw [present_inserted, listing_inserted, Bool.or_eq_true, ih, beq_iff_eq]
          by_cases known : present history (Keyed.key item) = true
          · rw [if_pos known, List.append_nil]
            exact or_iff_left_of_imp fun same => same ▸ ih.1 known
          · rw [if_neg known, List.map_append, List.mem_append, List.map_singleton,
              List.mem_singleton, eq_comm]
      | removed other =>
          rw [present_removed, listing_removed, Bool.and_eq_true, ih]
          simp only [List.mem_map, List.mem_filter, Bool.not_eq_true', beq_eq_false_iff_ne,
            bne_iff_ne]
          constructor
          · rintro ⟨⟨item, isListed, rfl⟩, differs⟩
            exact ⟨item, ⟨isListed, Ne.symm differs⟩, rfl⟩
          · rintro ⟨item, ⟨isListed, differs⟩, rfl⟩
            exact ⟨⟨item, isListed, rfl⟩, Ne.symm differs⟩

/-! ### Sets that follow a history -/

/-- What an event does to a set. -/
def happen (set : KeyedSet Item) : Event Item → KeyedSet Item
  | .inserted item => set.insert item
  | .removed key => set.filterKeys fun other => other != key

/-- What events do to a set, one after the other. -/
def replay (set : KeyedSet Item) (events : List (Event Item)) : KeyedSet Item :=
  events.foldl happen set

theorem contains_eq_present (follows : set.toList = listing history) :
    set.contains item = present history (Keyed.key item) := by
  rw [Bool.eq_iff_iff, contains_iff, present_iff, ← follows, map_key_toList]

/-- A set that lists what a history says still does after one more event. -/
theorem toList_happen (event : Event Item) (follows : set.toList = listing history) :
    (set.happen event).toList = listing (history ++ [event]) := by
  cases event with
  | inserted item =>
      rw [happen, toList_insert, listing_inserted, follows, contains_eq_present follows]
  | removed key =>
      rw [happen, toList_filterKeys, listing_removed, follows]

theorem toList_replay (follows : set.toList = listing history) :
    (set.replay events).toList = listing (history ++ events) := by
  induction events generalizing set history with
  | nil => rw [List.append_nil]; exact follows
  | cons event rest ih =>
      have moved := ih (toList_happen event follows)
      rw [List.append_assoc, List.singleton_append] at moved
      exact moved

theorem extend_eq_replay {items : List Item} :
    set.extend items = set.replay (items.map .inserted) := by
  rw [extend, replay, List.foldl_map]
  rfl

/-- Removing keys one after the other leaves the members with other keys. -/
theorem toList_replay_removed {keys : List String} :
    (set.replay (keys.map .removed)).toList =
      set.toList.filter fun item => !keys.contains (Keyed.key item) := by
  induction keys generalizing set with
  | nil => simp [replay]
  | cons key rest ih =>
      have step : set.replay ((key :: rest).map .removed) =
        (set.filterKeys fun other => other != key).replay (rest.map .removed) := rfl
      rw [step, ih, toList_filterKeys, List.filter_filter]
      refine List.filter_congr fun item _ => ?_
      rw [List.contains_cons, Bool.not_or, Bool.and_comm]
      rfl

theorem minus_eq_replay : set.minus other = set.replay (other.keys.map .removed) := by
  apply ext_toList
  rw [toList_minus, toList_replay_removed]
  refine List.filter_congr fun item _ => ?_
  rw [Bool.eq_iff_iff, Bool.not_eq_true', Bool.not_eq_true', ← Bool.not_eq_true,
    ← Bool.not_eq_true, contains_iff, List.contains_iff_mem]

/-- To keep what a predicate holds for is to remove the keys of the other members. -/
theorem filter_eq_replay {keep : Item → Bool} : set.filter keep =
    set.replay (((set.toList.filter fun item => !keep item).map Keyed.key).map .removed) := by
  apply ext_toList
  rw [toList_filter, toList_replay_removed]
  refine List.filter_congr fun item isMember => ?_
  rw [Bool.eq_iff_iff, Bool.not_eq_true', ← Bool.not_eq_true, List.contains_iff_mem, List.mem_map]
  constructor
  · rintro kept ⟨other, isDropped, sameKey⟩
    rcases List.mem_filter.1 isDropped with ⟨otherMember, dropped⟩
    rw [eq_of_key_eq otherMember isMember sameKey, kept] at dropped
    cases dropped
  · intro absent
    by_contra dropped
    exact absent ⟨item, List.mem_filter.2 ⟨isMember, by simpa using dropped⟩, rfl⟩

/-- Adds an item unless its key is already there, and tells whether it was added. -/
def tryInsert (set : KeyedSet Item) (item : Item) : KeyedSet Item × Bool :=
  if set.contains item then (set, false) else (set.insert item, true)

/-- Removes the member with the key of an item, and tells which one it was. -/
def take (set : KeyedSet Item) (item : Item) : KeyedSet Item × Option Item :=
  (set.erase item, set.find? (Keyed.key item))

theorem tryInsert_eq : set.tryInsert item = (set.insert item, !set.contains item) := by
  rw [tryInsert, insert]
  split <;> simp_all

/-- What the operations on a set answer, read off its history. -/
structure Realizes (set : KeyedSet Item) (history : List (Event Item)) : Prop where
  entries_eq : set.entries = (listing history).map fun item => (Keyed.key item, item)
  distinct : set.keys.Nodup
  mem_keys : ∀ key, key ∈ set.keys ↔ present history key = true
  toList_eq : set.toList = listing history
  hasKey_eq : ∀ key, set.hasKey key = present history key
  contains_eq : ∀ item, set.contains item = present history (Keyed.key item)
  size_eq : set.size = (listing history).length
  isEmpty_eq : set.isEmpty = (listing history).isEmpty
  find?_eq : ∀ key, set.find? key = (listing history).find? fun item => Keyed.key item == key
  tryInsert_eq : ∀ item, (set.tryInsert item).2 = !present history (Keyed.key item)
  take_eq : ∀ item, (set.take item).2 =
    (listing history).find? fun member => Keyed.key member == Keyed.key item

theorem realizes (follows : set.toList = listing history) : set.Realizes history where
  entries_eq := by rw [entries_eq, follows]
  distinct := set.nodup_keys
  mem_keys key := by rw [present_iff, ← follows, map_key_toList]
  toList_eq := follows
  hasKey_eq key := by
    rw [Bool.eq_iff_iff, hasKey_iff, present_iff, ← follows, map_key_toList]
  contains_eq item := contains_eq_present follows
  size_eq := by rw [← follows, toList, List.length_map, size]
  isEmpty_eq := by rw [← follows, toList, List.isEmpty_map, isEmpty]
  find?_eq key := by rw [find?_eq, follows]
  tryInsert_eq item := by rw [tryInsert_eq, contains_eq_present follows]
  take_eq item := by rw [take, find?_eq, follows]

/-! ### Operations on sets that are told apart by names -/

/-- An operation on sets with names. The last four make a set and give it a name. -/
inductive Operation (Item : Type) where
  | insert (name : String) (item : Item)
  | remove (name : String) (item : Item)
  | extend (name : String) (items : List Item)
  | union (left right result : String)
  | unionAll (names : List String) (result : String)
  | minus (left right result : String)
  | filter (name : String) (keep : Item → Bool) (result : String)

namespace Operation

variable {sets : String → KeyedSet Item} {histories : String → List (Event Item)}

/-- The name of the set that an operation changes or makes. -/
def target : Operation Item → String
  | .insert name _ => name
  | .remove name _ => name
  | .extend name _ => name
  | .union _ _ result => result
  | .unionAll _ result => result
  | .minus _ _ result => result
  | .filter _ _ result => result

/-- The set that an operation leads to. -/
def outcome (sets : String → KeyedSet Item) : Operation Item → KeyedSet Item
  | .insert name item => ((sets name).tryInsert item).1
  | .remove name item => ((sets name).take item).1
  | .extend name items => (sets name).extend items
  | .union left right _ => (sets left).union (sets right)
  | .unionAll names _ => KeyedSet.unionAll (names.map sets)
  | .minus left right _ => (sets left).minus (sets right)
  | .filter name keep _ => (sets name).filter keep

/-- The history of the set that an operation leads to. -/
def account (histories : String → List (Event Item)) : Operation Item → List (Event Item)
  | .insert name item => histories name ++ [.inserted item]
  | .remove name item => histories name ++ [.removed (Keyed.key item)]
  | .extend name items => histories name ++ items.map .inserted
  | .union left right _ => histories left ++ (listing (histories right)).map .inserted
  | .unionAll names _ => (names.flatMap fun name => listing (histories name)).map .inserted
  | .minus left right _ =>
      histories left ++ ((listing (histories right)).map Keyed.key).map .removed
  | .filter name keep _ =>
      histories name ++
        (((listing (histories name)).filter fun item => !keep item).map Keyed.key).map .removed

/-- What an operation does to the sets. -/
def perform (sets : String → KeyedSet Item) (operation : Operation Item) :
    String → KeyedSet Item :=
  Function.update sets operation.target (operation.outcome sets)

/-- What an operation does to the histories of the sets. -/
def record (histories : String → List (Event Item)) (operation : Operation Item) :
    String → List (Event Item) :=
  Function.update histories operation.target (operation.account histories)

/-- The set that an operation leads to lists what its history says. -/
theorem toList_outcome (operation : Operation Item)
    (follow : ∀ name, (sets name).toList = listing (histories name)) :
    (operation.outcome sets).toList = listing (operation.account histories) := by
  cases operation with
  | insert name item =>
      rw [outcome, account, tryInsert_eq]
      exact toList_happen (.inserted item) (follow name)
  | remove name item => exact toList_happen (.removed (Keyed.key item)) (follow name)
  | extend name items =>
      rw [outcome, account, extend_eq_replay]
      exact toList_replay (follow name)
  | union left right result =>
      rw [outcome, account, union_eq_extend, extend_eq_replay, follow right]
      exact toList_replay (follow left)
  | unionAll names result =>
      have sameItems : (names.map sets).flatMap toList =
          names.flatMap fun name => listing (histories name) := by
        rw [List.flatMap_map]
        exact List.flatMap_congr fun name _ => follow name
      rw [outcome, account, unionAll_eq_ofList, ofList, sameItems, extend_eq_replay]
      have noMembers : (empty : KeyedSet Item).toList = listing [] := rfl
      exact toList_replay noMembers
  | minus left right result =>
      rw [outcome, account, minus_eq_replay, ← map_key_toList, follow right]
      exact toList_replay (follow left)
  | filter name keep result =>
      rw [outcome, account, filter_eq_replay, follow name]
      exact toList_replay (follow name)

/-- An operation leaves every set with what its history says. -/
theorem toList_perform (operation : Operation Item)
    (follow : ∀ name, (sets name).toList = listing (histories name)) (name : String) :
    (operation.perform sets name).toList = listing (operation.record histories name) := by
  by_cases isTarget : name = operation.target
  · subst isTarget
    rw [perform, record, Function.update_self, Function.update_self]
    exact operation.toList_outcome follow
  · rw [perform, record, Function.update_of_ne isTarget, Function.update_of_ne isTarget]
    exact follow name

end Operation

/-- The sets after some operations, at first without members. -/
def run (operations : List (Operation Item)) : String → KeyedSet Item :=
  operations.foldl Operation.perform fun _ => empty

/-- The histories of the sets after some operations. -/
def recorded (operations : List (Operation Item)) : String → List (Event Item) :=
  operations.foldl Operation.record fun _ => []

theorem toList_run (operations : List (Operation Item)) (name : String) :
    (run operations name).toList = listing (recorded operations name) := by
  induction operations using List.reverseRecOn generalizing name with
  | nil => rfl
  | append_singleton operations operation ih =>
      rw [run, recorded, List.foldl_append, List.foldl_append]
      exact operation.toList_perform ih name

/-- Whatever operations are performed, the sets answer as their histories say. -/
theorem run_realizes (operations : List (Operation Item)) :
    (∀ name, (run operations name).Realizes (recorded operations name)) ∧
      (∀ left right, (run operations left).isSubset (run operations right) = true ↔
        ∀ key, present (recorded operations left) key = true →
          present (recorded operations right) key = true) ∧
      (∀ left right, (run operations left).sameKeys (run operations right) = true ↔
        ∀ key, present (recorded operations left) key = present (recorded operations right) key) ∧
      (∀ set other : KeyedSet Item,
        ((set.union other).minus other).toList =
          set.toList.filter fun item => !other.contains item) ∧
      Equivalence (fun set other : KeyedSet Item => set.sameKeys other = true) ∧
      (∀ set other : KeyedSet Item, set.sameKeys other = true ↔ set.keys.Perm other.keys) ∧
      (∀ set other : KeyedSet Item, (set.union other).sameKeys (other.union set) = true) ∧
      (∀ set other third : KeyedSet Item,
        ((set.union other).union third).sameKeys (set.union (other.union third)) = true) ∧
      ∀ set : KeyedSet Item, (set.union set).sameKeys set = true := by
  have realized (name : String) : (run operations name).Realizes (recorded operations name) :=
    realizes (toList_run operations name)
  refine ⟨realized, fun left right => ?_, fun left right => ?_, fun _ _ => toList_union_minus,
    sameKeys_equivalence, fun _ _ => sameKeys_iff_perm, fun set other => ?comm,
    fun set other third => ?assoc, fun set => ?idem⟩
  · simp only [isSubset_iff, (realized _).mem_keys]
  · rw [sameKeys_iff]
    refine forall_congr' fun key => ?_
    rw [(realized left).mem_keys, (realized right).mem_keys]
    exact Bool.eq_iff_iff.symm
  case comm =>
    rw [sameKeys_iff]
    intro key
    rw [mem_keys_union, mem_keys_union, or_comm]
  case assoc =>
    rw [sameKeys_iff]
    intro key
    rw [mem_keys_union, mem_keys_union, mem_keys_union, mem_keys_union, or_assoc]
  case idem =>
    rw [sameKeys_iff]
    intro key
    rw [mem_keys_union, or_self]

end KeyedSet

end FlowAnalysis
