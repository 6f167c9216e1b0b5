import FlowAnalysis.Proofs.Reference.LastWriters

/-!
# Laws of the transfer of a statement

What a statement does to a running state depends on the state reference by reference: some are
killed, the others stay, and what the statement generates is added whatever the state is. So the
transfer distributes over unions and is monotone, and a statement that acts once more changes
nothing, since what it kills of its own references it generates again.

States are compared by keys, and whether a reference is killed depends on its name and level. Names
without colons are told by the keys; a statement may hold its references at any level.
-/

namespace FlowAnalysis

namespace DefUse

variable {left right state statement : DefUse} {level : Level} {key : String}

/-- Every level of the first state has only keys of the same level of the second one. -/
def Within (state other : DefUse) : Prop :=
  ∀ level, (state.level level).isSubset (other.level level) = true

instance (state other : DefUse) : Decidable (state.Within other) :=
  decidable_of_iff (∀ level ∈ Level.all, (state.level level).isSubset (other.level level) = true)
    ⟨fun inside level => inside level level.mem_all, fun inside level _ => inside level⟩

/-- A statement leaves the reference that a state has under a key. -/
def Spares (statement state : DefUse) (level : Level) (key : String) : Prop :=
  ∃ earlier ∈ (state.level level).toList, earlier.key = key ∧
    isKilledBy earlier (statement.generated level) = false

/-- After a statement a state has the keys that are spared and those that are generated. -/
theorem mem_keys_update : key ∈ ((state.update statement).level level).keys ↔
    statement.Spares state level key ∨ key ∈ (statement.generated level).keys := by
  rw [update, level_ofLevels, KeyedSet.mem_keys_union, KeyedSet.mem_keys]
  simp only [KeyedSet.mem_minus_filter, Spares, and_assoc]
  refine or_congr_left (exists_congr fun earlier => and_congr_right fun _ => ?_)
  exact and_comm

/-- References of two states that have the same key have the same name. -/
def NamedAlike (left right : DefUse) : Prop :=
  ∀ level, ∀ reference ∈ (left.level level).toList, ∀ other ∈ (right.level level).toList,
    reference.key = other.key → reference.name = other.name

theorem HasPlainNames.namedAlike (leftPlain : left.HasPlainNames)
    (rightPlain : right.HasPlainNames) : NamedAlike left right :=
  fun level reference isMember other isOther same =>
    (Reference.name_level_eq_of_key_eq (leftPlain level reference isMember)
      (rightPlain level other isOther) same).1

theorem isKilledBy_eq_of_key_eq {reference other : Reference}
    (sameName : reference.name = other.name) (same : reference.key = other.key)
    (generated : RefSet) :
    isKilledBy reference generated = isKilledBy other generated := by
  simp only [isKilledBy, sameName, Reference.level_eq_of_key_eq sameName same]

/-- Two states may have different references under a key, but both or neither are spared. -/
theorem Spares.of_namedAlike (spares : statement.Spares left level key)
    (alike : NamedAlike left right) (isKey : key ∈ (right.level level).keys) :
    statement.Spares right level key := by
  rcases spares with ⟨earlier, isEarlier, rfl, spared⟩
  rcases KeyedSet.mem_keys.1 isKey with ⟨other, isOther, sameKey⟩
  have sameName := alike level earlier isEarlier other isOther sameKey.symm
  exact ⟨other, isOther, sameKey, by rw [← isKilledBy_eq_of_key_eq sameName sameKey.symm, spared]⟩

theorem Spares.of_mem_keys (spares : statement.Spares left level key)
    (leftPlain : left.HasPlainNames) (rightPlain : right.HasPlainNames)
    (isKey : key ∈ (right.level level).keys) : statement.Spares right level key :=
  spares.of_namedAlike (leftPlain.namedAlike rightPlain) isKey

theorem Spares.mem_keys (spares : statement.Spares state level key) :
    key ∈ (state.level level).keys := by
  rcases spares with ⟨earlier, isEarlier, rfl, -⟩
  exact KeyedSet.key_mem_keys isEarlier

theorem spares_union (leftPlain : left.HasPlainNames) (rightPlain : right.HasPlainNames) :
    statement.Spares (left.union right) level key ↔
      statement.Spares left level key ∨ statement.Spares right level key := by
  constructor
  · rintro ⟨earlier, isEarlier, sameKey, spared⟩
    rcases mem_level_union.1 isEarlier with inLeft | ⟨inRight, -⟩
    · exact .inl ⟨earlier, inLeft, sameKey, spared⟩
    · exact .inr ⟨earlier, inRight, sameKey, spared⟩
  · have ofLeft : statement.Spares left level key →
        statement.Spares (left.union right) level key := by
      rintro ⟨earlier, inLeft, sameKey, spared⟩
      exact ⟨earlier, mem_level_union.2 (.inl inLeft), sameKey, spared⟩
    rintro (spares | spares)
    · exact ofLeft spares
    · -- A reference of the right state gives way to one of the left state with its key.
      by_cases isKey : key ∈ (left.level level).keys
      · exact ofLeft (spares.of_mem_keys rightPlain leftPlain isKey)
      · rcases spares with ⟨earlier, inRight, rfl, spared⟩
        exact ⟨earlier, mem_level_union.2 (.inr ⟨inRight, isKey⟩), rfl, spared⟩

/-- What a statement has left or generated it leaves or generates again. -/
theorem spares_update_or_generated :
    statement.Spares (state.update statement) level key ∨ key ∈ (statement.generated level).keys ↔
      statement.Spares state level key ∨ key ∈ (statement.generated level).keys := by
  constructor
  · rintro (⟨earlier, isEarlier, rfl, spared⟩ | isGenerated)
    · rcases mem_update.1 isEarlier with ⟨early, -⟩ | ⟨isGenerated, -⟩
      · exact .inl ⟨earlier, early, rfl, spared⟩
      · exact .inr (KeyedSet.key_mem_keys isGenerated)
    · exact .inr isGenerated
  · rintro (⟨earlier, early, rfl, spared⟩ | isGenerated)
    · exact .inl ⟨earlier, mem_update.2 (.inl ⟨early, spared⟩), rfl, spared⟩
    · exact .inr isGenerated

/-- The transfer of a statement distributes over unions, is idempotent and is monotone. -/
theorem update_union_and_again_and_within (leftPlain : left.HasPlainNames)
    (rightPlain : right.HasPlainNames) (statement : DefUse) :
    ((left.union right).update statement).sameRefs
        ((left.update statement).union (right.update statement)) = true ∧
      ((left.update statement).update statement).sameRefs (left.update statement) = true ∧
      (left.Within right → (left.update statement).Within (right.update statement)) := by
  refine ⟨sameRefs_iff.2 fun level key => ?distributes, sameRefs_iff.2 fun level key => ?again,
    fun inside level => KeyedSet.isSubset_iff.2 fun key isKey => ?monotone⟩
  case distributes =>
    rw [level_union, KeyedSet.mem_keys_union, mem_keys_update, mem_keys_update, mem_keys_update,
      spares_union leftPlain rightPlain, ← or_or_distrib_right]
  case again =>
    rw [mem_keys_update, mem_keys_update]
    exact spares_update_or_generated
  case monotone =>
    rcases mem_keys_update.1 isKey with spares | isGenerated
    · have inRight := KeyedSet.isSubset_iff.1 (inside level) key spares.mem_keys
      exact mem_keys_update.2 (.inl (spares.of_mem_keys leftPlain rightPlain inRight))
    · exact mem_keys_update.2 (.inr isGenerated)

theorem HasPlainNames.union (leftPlain : left.HasPlainNames) (rightPlain : right.HasPlainNames) :
    (left.union right).HasPlainNames := by
  intro level reference isMember
  rcases mem_level_union.1 isMember with inLeft | ⟨inRight, -⟩
  · exact leftPlain level reference inLeft
  · exact rightPlain level reference inRight

/-- The binding of a list may have been passed on with or without its mutation; a statement that
mutates the list again leaves neither to be read. -/
theorem update_listReader_within :
    let bound := empty.update (ofReferences [occurrence .definition "xs" ⟨1, 0, 1, 7, none⟩])
    let mutated := bound.union
      (bound.update (ofReferences [occurrence .update "xs" ⟨2, 0, 2, 4, none⟩]))
    (bound.HasPlainNames ∧ mutated.HasPlainNames ∧ bound.Within mutated) ∧
    ((bound.union mutated).update listReader).sameRefs
      ((bound.update listReader).union (mutated.update listReader)) = true ∧
    ((bound.update listReader).update listReader).sameRefs (bound.update listReader) = true ∧
    (bound.update listReader).Within (mutated.update listReader) ∧
    (mutated.update listReader).uses.keys = ["xs:UPDATE@3:0-3:4"] := by
  intro bound mutated
  have boundPlain : bound.HasPlainNames :=
    hasPlainNames_empty.update (hasPlainNames_ofReferences (by decide))
  have mutatedPlain : mutated.HasPlainNames :=
    boundPlain.union (boundPlain.update (hasPlainNames_ofReferences (by decide)))
  have inside : bound.Within mutated := by decide +kernel
  rcases update_union_and_again_and_within boundPlain mutatedPlain listReader with
    ⟨distributes, again, monotone⟩
  exact ⟨⟨boundPlain, mutatedPlain, inside⟩, distributes, again, monotone inside, by decide +kernel⟩

end DefUse

end FlowAnalysis
