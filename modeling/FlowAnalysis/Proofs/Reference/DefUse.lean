import FlowAnalysis.Analysis.Names
import FlowAnalysis.Proofs.KeyedSet

/-!
# What statements do to running states

A statement binds at a level of the running state the references that it generates there. It adds
them, takes away what they kill, and leaves everything else as it is: `DefUse.mem_update`.
References are sets by key, and a key tells the name and the level as long as names are free of
colons.
-/

namespace FlowAnalysis

theorem Level.mem_all (level : Level) : level ∈ Level.all := by
  cases level <;> decide

namespace Reference

/-- The name ends where the first colon of the key stands. -/
def HasPlainName (reference : Reference) : Prop :=
  ':' ∉ reference.name.toList

instance (reference : Reference) : Decidable reference.HasPlainName :=
  inferInstanceAs (Decidable (':' ∉ reference.name.toList))

theorem append_colon_inj {first second rest rest' : List Char} (firstPlain : ':' ∉ first)
    (secondPlain : ':' ∉ second) (equal : first ++ ':' :: rest = second ++ ':' :: rest') :
    first = second ∧ rest = rest' := by
  induction first generalizing second with
  | nil =>
      cases second with
      | nil => exact ⟨rfl, (List.cons.inj equal).2⟩
      | cons character second =>
          have head : ':' = character := (List.cons.inj equal).1
          exact absurd (head ▸ List.mem_cons_self) secondPlain
  | cons character first ih =>
      cases second with
      | nil =>
          have head : character = ':' := (List.cons.inj equal).1
          exact absurd (head ▸ List.mem_cons_self) firstPlain
      | cons other second =>
          rcases List.cons.inj equal with ⟨rfl, tail⟩
          rcases ih (fun inFirst => firstPlain (List.mem_cons_of_mem _ inFirst))
            (fun inSecond => secondPlain (List.mem_cons_of_mem _ inSecond)) tail with ⟨rfl, rfl⟩
          exact ⟨rfl, rfl⟩

/-- References of one name with one key are at one level. -/
theorem level_eq_of_key_eq {left right : Reference} (sameName : left.name = right.name)
    (same : left.key = right.key) : left.level = right.level := by
  have characters := congrArg String.toList same
  simp only [key, sameName, String.toList_append, List.append_assoc] at characters
  have rest := List.append_cancel_left characters
  cases leftLevel : left.level <;> cases rightLevel : right.level <;>
    simp [leftLevel, rightLevel, Level.label] at rest ⊢

theorem name_level_eq_of_key_eq {left right : Reference} (leftPlain : left.HasPlainName)
    (rightPlain : right.HasPlainName) (same : left.key = right.key) :
    left.name = right.name ∧ left.level = right.level := by
  have characters := congrArg String.toList same
  simp only [key, String.toList_append, List.append_assoc] at characters
  have sameName := String.toList_inj.1 (append_colon_inj leftPlain rightPlain characters).1
  exact ⟨sameName, level_eq_of_key_eq sameName same⟩

theorem location_key_eq_of_key_eq {left right : Reference} (leftPlain : left.HasPlainName)
    (rightPlain : right.HasPlainName) (same : left.key = right.key) :
    left.location.key = right.location.key := by
  rcases name_level_eq_of_key_eq leftPlain rightPlain same with ⟨sameName, sameLevel⟩
  rw [key, key, sameName, sameLevel] at same
  have characters := congrArg String.toList same
  simp only [String.toList_append] at characters
  exact String.toList_inj.1 (List.append_cancel_left characters)

end Reference

namespace DefUse

variable {statement running state other : DefUse} {level : Level}
  {reference source target : Reference}

@[simp]
theorem level_ofLevels (levels : Level → RefSet) (level : Level) :
    (ofLevels levels).level level = levels level := by
  cases level <;> rfl

@[simp]
theorem level_empty (level : Level) : empty.level level = .empty := by
  cases level <;> rfl

@[simp]
theorem level_union (level : Level) :
    (state.union other).level level = (state.level level).union (other.level level) := by
  rw [union, level_ofLevels]

/-- The second state adds to a level what the first one does not have under its key. -/
theorem mem_level_union : reference ∈ ((state.union other).level level).toList ↔
    reference ∈ (state.level level).toList ∨
      reference ∈ (other.level level).toList ∧ reference.key ∉ (state.level level).keys := by
  rw [level_union]
  exact KeyedSet.mem_union

/-! ### References of a statement -/

/-- All references are at their own level, and they belong to a statement with the given key. -/
def OwnedAt (defUse : DefUse) (key : String) : Prop :=
  ∀ level, ∀ reference ∈ (defUse.level level).toList,
    reference.level = level ∧ reference.owner.key = key

/-- All references are at their own level, whatever statements they belong to. -/
def HasOwnLevels (defUse : DefUse) : Prop :=
  ∀ level, ∀ reference ∈ (defUse.level level).toList, reference.level = level

theorem OwnedAt.hasOwnLevels {key : String} (owned : statement.OwnedAt key) :
    statement.HasOwnLevels :=
  fun level reference isMember => (owned level reference isMember).1

/-- No name contains a colon. -/
def HasPlainNames (defUse : DefUse) : Prop :=
  ∀ level, ∀ reference ∈ (defUse.level level).toList, reference.HasPlainName

/-- A statement binds a reference as a level of the running state sees it: for uses its definitions
and updates, for updates its definitions. -/
def Binds (statement : DefUse) (level : Level) (reference : Reference) : Prop :=
  ∃ source ∈ level.generatedBy, reference ∈ (statement.level source).toList

/-- A statement binds some reference with a name. -/
def Rebinds (statement : DefUse) (level : Level) (name : String) : Prop :=
  ∃ reference, statement.Binds level reference ∧ reference.name = name

/-- A statement has a reference with a name at a level. -/
def Refers (statement : DefUse) (level : Level) (name : String) : Prop :=
  ∃ reference ∈ (statement.level level).toList, reference.name = name

instance (statement : DefUse) (level : Level) (name : String) :
    Decidable (statement.Refers level name) :=
  inferInstanceAs (Decidable (∃ reference ∈ (statement.level level).toList, reference.name = name))

theorem rebinds_iff {name : String} :
    statement.Rebinds level name ↔ ∃ source ∈ level.generatedBy, statement.Refers source name := by
  constructor
  · rintro ⟨reference, ⟨source, isSource, isMember⟩, sameName⟩
    exact ⟨source, isSource, reference, isMember, sameName⟩
  · rintro ⟨source, isSource, reference, isMember, sameName⟩
    exact ⟨reference, ⟨source, isSource, isMember⟩, sameName⟩

theorem rebinds_update_iff {name : String} :
    statement.Rebinds .update name ↔ statement.Refers .definition name := by
  simp [rebinds_iff, Level.generatedBy]

theorem rebinds_use_iff {name : String} :
    statement.Rebinds .use name ↔
      statement.Refers .update name ∨ statement.Refers .definition name := by
  simp [rebinds_iff, Level.generatedBy]

theorem mem_insert (isMember : reference ∈ ((state.insert source).level level).toList) :
    reference ∈ (state.level level).toList ∨ reference = source ∧ source.level = level := by
  cases sourceLevel : source.level <;> cases level <;>
    simp only [insert, sourceLevel, DefUse.level] at isMember ⊢
  all_goals first
    | exact .inl isMember
    | exact (KeyedSet.mem_insert.1 isMember).imp_right fun inserted => ⟨inserted.1, trivial⟩

/-- References that are sorted by level are some of the given ones. -/
theorem mem_of_mem_ofReferences {references : List Reference}
    (isMember : reference ∈ ((ofReferences references).level level).toList) :
    reference ∈ references ∧ reference.level = level := by
  have fold : ∀ state : DefUse, reference ∈ ((references.foldl insert state).level level).toList →
      reference ∈ (state.level level).toList ∨
        reference ∈ references ∧ reference.level = level := by
    clear isMember
    induction references with
    | nil => exact fun _ early => .inl early
    | cons first rest ih =>
        intro state isMember
        rcases ih _ isMember with inserted | ⟨later, atLevel⟩
        · rcases mem_insert inserted with early | ⟨rfl, atLevel⟩
          · exact .inl early
          · exact .inr ⟨List.mem_cons_self, atLevel⟩
        · exact .inr ⟨List.mem_cons_of_mem _ later, atLevel⟩
  exact (fold empty isMember).resolve_left (by simp)

/-- References that are sorted by level all have their keys there. -/
theorem key_mem_ofReferences {references : List Reference}
    (isGiven : reference ∈ references) :
    reference.key ∈ ((ofReferences references).level reference.level).keys := by
  have inserted : ∀ (state : DefUse) (other : Reference) (level : Level) {key : String},
      key ∈ ((state.insert other).level level).keys ↔
        key ∈ (state.level level).keys ∨ other.level = level ∧ key = other.key := by
    intro state other level key
    cases otherLevel : other.level <;> cases level <;>
      simp [insert, otherLevel, DefUse.level, KeyedSet.mem_keys_insert, Keyed.key]
  have fold : ∀ state : DefUse, reference.key ∈ (state.level reference.level).keys ∨
      reference ∈ references →
        reference.key ∈ ((references.foldl insert state).level reference.level).keys := by
    clear isGiven
    induction references with
    | nil => simp
    | cons first rest ih =>
        intro state isMember
        apply ih
        rcases isMember with early | isMember
        · exact .inl ((inserted ..).2 (.inl early))
        · rcases List.mem_cons.1 isMember with rfl | later
          · exact .inl ((inserted ..).2 (.inr ⟨rfl, rfl⟩))
          · exact .inr later
  exact fold empty (.inr isGiven)

theorem ownedAt_ofReferences {references : List Reference} {key : String}
    (owned : ∀ reference ∈ references, reference.owner.key = key) :
    (ofReferences references).OwnedAt key := by
  intro level reference isMember
  rcases mem_of_mem_ofReferences isMember with ⟨isGiven, atLevel⟩
  exact ⟨atLevel, owned reference isGiven⟩

theorem hasOwnLevels_ofReferences {references : List Reference} :
    (ofReferences references).HasOwnLevels :=
  fun _ _ isMember => (mem_of_mem_ofReferences isMember).2

theorem hasPlainNames_ofReferences {references : List Reference}
    (plain : ∀ reference ∈ references, reference.HasPlainName) :
    (ofReferences references).HasPlainNames :=
  fun _ reference isMember => plain reference (mem_of_mem_ofReferences isMember).1

theorem Binds.level_ne_use (ownLevels : statement.HasOwnLevels)
    (binds : statement.Binds level reference) : reference.level ≠ .use := by
  rcases binds with ⟨source, isSource, isMember⟩
  rw [ownLevels source reference isMember]
  rintro rfl
  cases level <;> simp [Level.generatedBy] at isSource

theorem Binds.owner_key {key : String} (owned : statement.OwnedAt key)
    (binds : statement.Binds level reference) : reference.owner.key = key := by
  rcases binds with ⟨source, -, isMember⟩
  exact (owned source reference isMember).2

theorem Binds.hasPlainName (plain : statement.HasPlainNames)
    (binds : statement.Binds level reference) : reference.HasPlainName := by
  rcases binds with ⟨source, -, isMember⟩
  exact plain source reference isMember

theorem binds_of_mem_generated (isMember : reference ∈ (statement.generated level).toList) :
    statement.Binds level reference := by
  cases level
  · simp [generated, Level.generatedBy, KeyedSet.unionAll] at isMember
  · rcases KeyedSet.mem_union.1 isMember with absent | ⟨isDefinition, -⟩
    · exact absurd absent List.not_mem_nil
    · exact ⟨.definition, List.mem_cons_self, isDefinition⟩
  · rcases KeyedSet.mem_union.1 isMember with isUpdate | ⟨isDefinition, -⟩
    · rcases KeyedSet.mem_union.1 isUpdate with absent | ⟨isUpdate, -⟩
      · exact absurd absent List.not_mem_nil
      · exact ⟨.update, List.mem_cons_self, isUpdate⟩
    · exact ⟨.definition, List.mem_cons_of_mem _ List.mem_cons_self, isDefinition⟩

theorem Binds.key_mem_generated (binds : statement.Binds level reference) :
    reference.key ∈ (statement.generated level).keys := by
  rcases binds with ⟨source, isSource, isMember⟩
  have isKey := KeyedSet.key_mem_keys isMember
  cases level
  · exact absurd isSource List.not_mem_nil
  · rcases List.mem_singleton.1 isSource with rfl
    exact KeyedSet.mem_keys_union.2 (.inr isKey)
  · simp only [Level.generatedBy, List.mem_cons, List.not_mem_nil, or_false] at isSource
    rcases isSource with rfl | rfl
    · exact KeyedSet.mem_keys_union.2 (.inl (KeyedSet.mem_keys_union.2 (.inr isKey)))
    · exact KeyedSet.mem_keys_union.2 (.inr isKey)

/-- A bound reference is not dropped for another one with its key. -/
theorem Binds.mem_generated (ownLevels : statement.HasOwnLevels)
    (plain : statement.HasPlainNames) (binds : statement.Binds level reference) :
    reference ∈ (statement.generated level).toList := by
  rcases binds with ⟨source, isSource, isMember⟩
  cases level
  · exact absurd isSource List.not_mem_nil
  · rcases List.mem_singleton.1 isSource with rfl
    exact KeyedSet.mem_union.2 (.inr ⟨isMember, List.not_mem_nil⟩)
  · have onlyUpdates : ∀ found, found ∈ (KeyedSet.empty.union statement.updates).toList ↔
        found ∈ statement.updates.toList := by
      intro found
      simp [KeyedSet.mem_union]
    simp only [Level.generatedBy, List.mem_cons, List.not_mem_nil, or_false] at isSource
    rcases isSource with rfl | rfl
    · exact KeyedSet.mem_union.2 (.inl ((onlyUpdates reference).2 isMember))
    · refine KeyedSet.mem_union.2 (.inr ⟨isMember, fun isKey => ?_⟩)
      rcases KeyedSet.mem_keys.1 isKey with ⟨other, isOther, sameKey⟩
      have isUpdate : other ∈ (statement.level .update).toList := (onlyUpdates other).1 isOther
      have sameLevel := (Reference.name_level_eq_of_key_eq (plain _ other isUpdate)
        (plain _ reference isMember) sameKey).2
      rw [ownLevels _ other isUpdate, ownLevels _ reference isMember] at sameLevel
      cases sameLevel

/-! ### Running states -/

theorem isKilledBy_iff {generated : RefSet} :
    isKilledBy reference generated = true ↔
      ∃ killer ∈ generated.toList, killer.name = reference.name ∧
        killer.level.kills reference.level = true := by
  simp [isKilledBy]

theorem rebinds_of_isKilledBy (killed : isKilledBy reference (statement.generated level) = true) :
    statement.Rebinds level reference.name := by
  rcases isKilledBy_iff.1 killed with ⟨killer, isMember, sameName, -⟩
  exact ⟨killer, binds_of_mem_generated isMember, sameName⟩

/-- What a statement rebinds it kills. -/
theorem isKilledBy_of_rebinds (ownLevels : statement.HasOwnLevels)
    (plain : statement.HasPlainNames) (notUse : reference.level ≠ .use)
    (rebinds : statement.Rebinds level reference.name) :
    isKilledBy reference (statement.generated level) = true := by
  rcases rebinds with ⟨binding, binds, sameName⟩
  rcases KeyedSet.mem_keys.1 binds.key_mem_generated with ⟨killer, isMember, sameKey⟩
  have killerBinds := binds_of_mem_generated isMember
  refine isKilledBy_iff.2 ⟨killer, isMember, ?_, ?_⟩
  · rw [← sameName]
    exact (Reference.name_level_eq_of_key_eq (killerBinds.hasPlainName plain)
      (binds.hasPlainName plain) sameKey).1
  · simp [Level.kills, killerBinds.level_ne_use ownLevels, notUse]

/-- A statement leaves what it does not kill and adds what it generates. -/
theorem mem_update :
    reference ∈ ((running.update statement).level level).toList ↔
      (reference ∈ (running.level level).toList ∧
        isKilledBy reference (statement.generated level) = false) ∨
      (reference ∈ (statement.generated level).toList ∧
        ∀ earlier ∈ (running.level level).toList, earlier.key = reference.key →
          isKilledBy earlier (statement.generated level) = true) := by
  have remains : ∀ earlier, earlier ∈ ((running.level level).minus
        ((running.level level).filter fun earlier =>
          isKilledBy earlier (statement.generated level))).toList ↔
      earlier ∈ (running.level level).toList ∧
        isKilledBy earlier (statement.generated level) = false :=
    fun earlier => KeyedSet.mem_minus_filter
  rw [update, level_ofLevels, KeyedSet.mem_union, remains]
  refine or_congr_right (and_congr_right fun _ => ?_)
  constructor
  · intro absent earlier isMember sameKey
    rw [← Bool.not_eq_false]
    intro spared
    have keyEq : Keyed.key earlier = Keyed.key reference := sameKey
    exact absent (keyEq ▸ KeyedSet.key_mem_keys ((remains earlier).2 ⟨isMember, spared⟩))
  · intro killed isKey
    rcases KeyedSet.mem_keys.1 isKey with ⟨earlier, isMember, sameKey⟩
    rcases (remains earlier).1 isMember with ⟨isMember, spared⟩
    rw [killed earlier isMember sameKey] at spared
    cases spared

theorem key_mem_update_of_binds (binds : statement.Binds level reference) :
    reference.key ∈ ((running.update statement).level level).keys := by
  rw [update, level_ofLevels]
  exact KeyedSet.mem_keys_union.2 (.inr binds.key_mem_generated)

/-- What a statement binds is in the running state after it. -/
theorem mem_update_of_binds (ownLevels : statement.HasOwnLevels)
    (plain : statement.HasPlainNames) (runningPlain : running.HasPlainNames)
    (binds : statement.Binds level reference) :
    reference ∈ ((running.update statement).level level).toList := by
  have isGenerated := binds.mem_generated ownLevels plain
  refine mem_update.2 (.inr ⟨isGenerated, fun earlier isMember sameKey => ?_⟩)
  rcases Reference.name_level_eq_of_key_eq (runningPlain level earlier isMember)
    (binds.hasPlainName plain) sameKey with ⟨sameName, sameLevel⟩
  refine isKilledBy_iff.2 ⟨reference, isGenerated, sameName.symm, ?_⟩
  simp [Level.kills, sameLevel, binds.level_ne_use ownLevels]

theorem mem_update_of_not_rebinds (isMember : reference ∈ (running.level level).toList)
    (spared : ¬statement.Rebinds level reference.name) :
    reference ∈ ((running.update statement).level level).toList :=
  mem_update.2 (.inl ⟨isMember, Bool.eq_false_iff.2 fun killed =>
    spared (rebinds_of_isKilledBy killed)⟩)

/-- What is in the running state after a statement was there before, or the statement binds it. -/
theorem mem_or_binds_of_mem_update
    (isMember : reference ∈ ((running.update statement).level level).toList) :
    reference ∈ (running.level level).toList ∨ statement.Binds level reference := by
  rcases mem_update.1 isMember with ⟨isMember, -⟩ | ⟨isGenerated, -⟩
  · exact .inl isMember
  · exact .inr (binds_of_mem_generated isGenerated)

theorem HasPlainNames.update (runningPlain : running.HasPlainNames)
    (plain : statement.HasPlainNames) : (running.update statement).HasPlainNames := by
  intro level reference isMember
  rcases mem_or_binds_of_mem_update isMember with early | binds
  · exact runningPlain level reference early
  · exact binds.hasPlainName plain

theorem sameRefs_iff : state.sameRefs other = true ↔
    ∀ level key, key ∈ (state.level level).keys ↔ key ∈ (other.level level).keys := by
  simp only [sameRefs, List.all_eq_true, KeyedSet.sameKeys_iff, Level.mem_all, forall_const]

theorem keys_of_sameRefs {key : String} (same : state.sameRefs other = true) :
    key ∈ (state.level level).keys ↔ key ∈ (other.level level).keys :=
  sameRefs_iff.1 same level key

/-! ### Pairs of references -/

/-- The pairs of a reference of the running state and one of the statement at a level. -/
def pairsAt (statement running : DefUse) (level : Level) : List (Reference × Reference) :=
  (statement.level level).toList.flatMap fun target =>
    ((running.level level).toList.filter fun source => source.name == target.name).map
      fun source => (source, target)

theorem mem_pairsAt :
    (source, target) ∈ statement.pairsAt running level ↔
      target ∈ (statement.level level).toList ∧ source ∈ (running.level level).toList ∧
        source.name = target.name := by
  simp only [pairsAt, List.mem_flatMap, List.mem_map, List.mem_filter, beq_iff_eq, Prod.mk.injEq]
  constructor
  · rintro ⟨target', isTarget, source', ⟨isSource, sameName⟩, rfl, rfl⟩
    exact ⟨isTarget, isSource, sameName⟩
  · rintro ⟨isTarget, isSource, sameName⟩
    exact ⟨target, isTarget, source, ⟨isSource, sameName⟩, rfl, rfl⟩

theorem mem_reachingPairs :
    (source, target) ∈ statement.reachingPairs running ↔
      ∃ level, target ∈ (statement.level level).toList ∧ source ∈ (running.level level).toList ∧
        source.name = target.name := by
  have byLevel : statement.reachingPairs running = Level.all.flatMap (statement.pairsAt running) :=
    rfl
  simp only [byLevel, List.mem_flatMap, mem_pairsAt, Level.mem_all, true_and]

/-- An edge that is drawn stands for a pair, and those at the level of uses come last. -/
theorem exists_pair_of_mem_flowsFrom {flow : Dataflow}
    (isFlow : flow ∈ (statement.flowsFrom running).toList) :
    ∃ level source target, (source, target) ∈ statement.pairsAt running level ∧
      flow = .between source target ∧
      (level = .use → ∀ pair ∈ statement.pairsAt running .update,
        (Dataflow.between pair.1 pair.2).key ≠ flow.key) := by
  have byLevel : statement.flowsFrom running =
      (KeyedSet.ofList ((statement.pairsAt running .definition ++
        statement.pairsAt running .update).map fun pair => .between pair.1 pair.2)).extend
        ((statement.pairsAt running .use).map fun pair => .between pair.1 pair.2) := by
    rw [KeyedSet.ofList, KeyedSet.extend, KeyedSet.extend, ← List.foldl_append, ← List.map_append]
    simp [flowsFrom, KeyedSet.ofList, KeyedSet.extend, reachingPairs, Level.all, pairsAt]
  rw [byLevel] at isFlow
  rcases KeyedSet.mem_or_fresh_of_mem_extend isFlow with early | ⟨isLast, fresh⟩
  · rcases List.mem_map.1 (KeyedSet.mem_ofList early) with ⟨⟨source, target⟩, isPair, rfl⟩
    rcases List.mem_append.1 isPair with isPair | isPair
    · exact ⟨_, source, target, isPair, rfl, by simp⟩
    · exact ⟨_, source, target, isPair, rfl, by simp⟩
  · rcases List.mem_map.1 isLast with ⟨⟨source, target⟩, isPair, rfl⟩
    refine ⟨_, source, target, isPair, rfl, fun _ pair isEarlier sameKey => fresh ?_⟩
    rw [KeyedSet.mem_keys_ofList]
    exact List.mem_map.2 ⟨_, List.mem_map.2 ⟨pair, List.mem_append_right _ isEarlier, rfl⟩, sameKey⟩

end DefUse

end FlowAnalysis
