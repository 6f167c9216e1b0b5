import FlowAnalysis.Proofs.Location
import FlowAnalysis.Proofs.Reference.DefUse
import Mathlib.Data.List.Induction

/-!
# Last writers

Statements that act on a state one after the other leave in it the references that they bind and
that no later one of them rebinds, next to what none of them rebinds of the state they began with.
From the empty state these are the last writers of every name: definitions for the next mutation,
definitions and mutations for the next read.

The edges from there into a further statement join references of one name. Edges are told apart by
their keys, and a key has the keys of the locations of both ends in it. Two pairs of locations have
one key only if a path says so.
-/

namespace FlowAnalysis

namespace DefUse

variable {statement last running : DefUse} {statements : List DefUse} {level : Level}
  {reference source target : Reference}

/-! ### Statements one after the other -/

/-- One of the statements binds a reference, and none of the later ones rebinds its name. -/
def LastBinds (statements : List DefUse) (level : Level) (reference : Reference) : Prop :=
  ∃ before statement after, statements = before ++ statement :: after ∧
    statement.Binds level reference ∧ ∀ later ∈ after, ¬later.Rebinds level reference.name

theorem not_lastBinds_nil : ¬LastBinds [] level reference := by
  rintro ⟨before, statement, after, isNil, -⟩
  simp at isNil

theorem lastBinds_concat :
    LastBinds (statements ++ [last]) level reference ↔
      last.Binds level reference ∨
        LastBinds statements level reference ∧ ¬last.Rebinds level reference.name := by
  constructor
  · rintro ⟨before, statement, after, splits, binds, untouched⟩
    rcases List.eq_nil_or_concat' after with rfl | ⟨after, final, rfl⟩
    · rcases List.append_inj' splits rfl with ⟨-, lastEq⟩
      rcases List.singleton_inj.1 lastEq with rfl
      exact .inl binds
    · rw [← List.cons_append, ← List.append_assoc] at splits
      rcases List.append_inj' splits rfl with ⟨rfl, lastEq⟩
      rcases List.singleton_inj.1 lastEq with rfl
      rcases List.forall_mem_append.1 untouched with ⟨untouched, spared⟩
      exact .inr ⟨⟨before, statement, after, rfl, binds, untouched⟩, spared last (by simp)⟩
  · rintro (binds | ⟨⟨before, statement, after, rfl, binds, untouched⟩, spared⟩)
    · exact ⟨statements, last, [], rfl, binds, by simp⟩
    · refine ⟨before, statement, after ++ [last], by simp, binds, ?_⟩
      exact List.forall_mem_append.2 ⟨untouched, by simpa using spared⟩

theorem LastBinds.exists_binds (lastBinds : LastBinds statements level reference) :
    ∃ statement ∈ statements, statement.Binds level reference := by
  rcases lastBinds with ⟨before, statement, after, rfl, binds, -⟩
  exact ⟨statement, by simp, binds⟩

theorem hasPlainNames_foldl_update (plain : ∀ statement ∈ statements, statement.HasPlainNames)
    (runningPlain : running.HasPlainNames) : (statements.foldl update running).HasPlainNames := by
  induction statements generalizing running with
  | nil => exact runningPlain
  | cons first rest ih =>
      rcases List.forall_mem_cons.1 plain with ⟨firstPlain, restPlain⟩
      exact ih restPlain (runningPlain.update firstPlain)

theorem hasPlainNames_empty : empty.HasPlainNames := by
  intro level reference isMember
  simp at isMember

section

variable (ownLevels : ∀ statement ∈ statements, statement.HasOwnLevels)
  (plain : ∀ statement ∈ statements, statement.HasPlainNames)

include ownLevels plain

theorem LastBinds.mem_foldl_update (lastBinds : LastBinds statements level reference)
    (runningPlain : running.HasPlainNames) :
    reference ∈ ((statements.foldl update running).level level).toList := by
  induction statements using List.reverseRecOn with
  | nil => exact absurd lastBinds not_lastBinds_nil
  | append_singleton statements last ih =>
      rcases List.forall_mem_append.1 ownLevels with ⟨ownLevelsBefore, ownLevelsLast⟩
      rcases List.forall_mem_append.1 plain with ⟨plainBefore, plainLast⟩
      rw [List.foldl_append]
      rcases lastBinds_concat.1 lastBinds with binds | ⟨lastBinds, spared⟩
      · exact mem_update_of_binds (ownLevelsLast last (by simp)) (plainLast last (by simp))
          (hasPlainNames_foldl_update plainBefore runningPlain) binds
      · exact mem_update_of_not_rebinds (ih ownLevelsBefore plainBefore lastBinds) spared

/-- Nothing else is in a state after some statements. A statement takes away what it rebinds, since
no state has uses in it. -/
theorem lastBinds_or_of_mem_foldl_update
    (isBinding : ∀ reference ∈ (running.level level).toList, reference.level ≠ .use)
    (isMember : reference ∈ ((statements.foldl update running).level level).toList) :
    LastBinds statements level reference ∨
      reference ∈ (running.level level).toList ∧
        ∀ statement ∈ statements, ¬statement.Rebinds level reference.name := by
  induction statements using List.reverseRecOn with
  | nil => exact .inr ⟨isMember, by simp⟩
  | append_singleton statements last ih =>
      rcases List.forall_mem_append.1 ownLevels with ⟨ownLevelsBefore, ownLevelsLast⟩
      rcases List.forall_mem_append.1 plain with ⟨plainBefore, plainLast⟩
      rw [List.foldl_append] at isMember
      rcases mem_update.1 isMember with ⟨early, notKilled⟩ | ⟨isGenerated, -⟩
      · have found := ih ownLevelsBefore plainBefore early
        have notUse : reference.level ≠ .use := by
          rcases found with lastBinds | ⟨inRunning, -⟩
          · rcases lastBinds.exists_binds with ⟨statement, isStatement, binds⟩
            exact binds.level_ne_use (ownLevelsBefore statement isStatement)
          · exact isBinding reference inRunning
        have spared : ¬last.Rebinds level reference.name := by
          intro rebinds
          rw [isKilledBy_of_rebinds (ownLevelsLast last (by simp)) (plainLast last (by simp)) notUse
            rebinds] at notKilled
          cases notKilled
        rcases found with lastBinds | ⟨inRunning, untouched⟩
        · exact .inl (lastBinds_concat.2 (.inr ⟨lastBinds, spared⟩))
        · exact .inr ⟨inRunning, List.forall_mem_append.2 ⟨untouched, by simpa using spared⟩⟩
      · exact .inl (lastBinds_concat.2 (.inl (binds_of_mem_generated isGenerated)))

/-- From the empty state statements leave their last writers. -/
theorem mem_foldl_update_empty :
    reference ∈ ((statements.foldl update empty).level level).toList ↔
      LastBinds statements level reference := by
  constructor
  · intro isMember
    rcases lastBinds_or_of_mem_foldl_update ownLevels plain (by simp) isMember with
      lastBinds | ⟨absent, -⟩
    · exact lastBinds
    · simp at absent
  · exact fun lastBinds => lastBinds.mem_foldl_update ownLevels plain hasPlainNames_empty

end

/-! ### What reaches a further statement -/

/-- A reference of the running state meets one of a statement with its name, where mutations look
for definitions or where reads look for definitions and mutations. -/
def Meets (statement running : DefUse) (source target : Reference) : Prop :=
  (source ∈ running.updates.toList ∧ target ∈ statement.updates.toList ∨
    source ∈ running.uses.toList ∧ target ∈ statement.uses.toList) ∧ source.name = target.name

theorem mem_reachingPairs_iff_meets (noDefinitions : running.definitions.toList = []) :
    (source, target) ∈ statement.reachingPairs running ↔ statement.Meets running source target := by
  rw [mem_reachingPairs]
  constructor
  · rintro ⟨level, isTarget, isSource, sameName⟩
    cases level with
    | definition =>
        have isDefinition : source ∈ running.definitions.toList := isSource
        rw [noDefinitions] at isDefinition
        exact absurd isDefinition List.not_mem_nil
    | update => exact ⟨.inl ⟨isSource, isTarget⟩, sameName⟩
    | use => exact ⟨.inr ⟨isSource, isTarget⟩, sameName⟩
  · rintro ⟨⟨isSource, isTarget⟩ | ⟨isSource, isTarget⟩, sameName⟩
    · exact ⟨.update, isTarget, isSource, sameName⟩
    · exact ⟨.use, isTarget, isSource, sameName⟩

/-- The references of a statement are told apart by their keys, also across levels. -/
theorem eq_of_key_eq (ownLevels : statement.HasOwnLevels) (plain : statement.HasPlainNames)
    {other : Reference} {level' : Level} (isMember : reference ∈ (statement.level level).toList)
    (isOther : other ∈ (statement.level level').toList) (same : reference.key = other.key) :
    reference = other := by
  have sameLevel := (Reference.name_level_eq_of_key_eq (plain level reference isMember)
    (plain level' other isOther) same).2
  rw [ownLevels level reference isMember, ownLevels level' other isOther] at sameLevel
  subst sameLevel
  exact KeyedSet.eq_of_key_eq isMember isOther same

theorem mem_reachedFrom (ownLevels : statement.HasOwnLevels) (plain : statement.HasPlainNames) :
    target ∈ (statement.reachedFrom running).toList ↔
      ∃ source, (source, target) ∈ statement.reachingPairs running := by
  constructor
  · intro isReached
    rcases List.mem_map.1 (KeyedSet.mem_ofList isReached) with ⟨⟨source, _⟩, isPair, rfl⟩
    exact ⟨source, isPair⟩
  · rintro ⟨source, isPair⟩
    have isKey : target.key ∈ (statement.reachedFrom running).keys :=
      KeyedSet.mem_keys_ofList.2
        (List.mem_map.2 ⟨target, List.mem_map.2 ⟨_, isPair, rfl⟩, rfl⟩)
    rcases KeyedSet.mem_keys.1 isKey with ⟨other, isReached, sameKey⟩
    rcases List.mem_map.1 (KeyedSet.mem_ofList isReached) with ⟨⟨_, _⟩, isOtherPair, rfl⟩
    rcases mem_reachingPairs.1 isPair with ⟨level, isTarget, -⟩
    rcases mem_reachingPairs.1 isOtherPair with ⟨level', isOther, -⟩
    rwa [eq_of_key_eq ownLevels plain isTarget isOther sameKey.symm]

end DefUse

/-! ### Edges between locations -/

namespace Dataflow

variable {flow other : Dataflow}

/-- The locations of the ends of an edge. -/
def ends (flow : Dataflow) : Location × Location :=
  (flow.source.location, flow.target.location)

/-- The key of an edge with given ends. -/
def endsKey (ends : Location × Location) : String :=
  ends.1.key ++ "->" ++ ends.2.key

/-- An edge of a set is the only one with its ends. -/
theorem nodup_ends (flows : DataflowSet) : (flows.toList.map ends).Nodup := by
  apply List.Nodup.of_map endsKey
  rw [List.map_map]
  exact flows.map_key_toList ▸ flows.nodup_keys

/-- The ends of an edge can be told from its key if theirs do not contain the end of the arrow. -/
theorem ends_eq_of_key_eq (sourcePlain : '>' ∉ flow.source.key.toList)
    (targetPlain : '>' ∉ flow.target.key.toList) (same : other.key = flow.key) :
    other.source.key = flow.source.key ∧ other.target.key = flow.target.key := by
  have split : ∀ flow : Dataflow, flow.key.toList =
      (flow.source.key.toList ++ ['-']) ++ '>' :: flow.target.key.toList := by
    intro flow
    simp [key]
  have characters := congrArg String.toList same
  rw [split, split, eq_comm] at characters
  have sourceArrow : '>' ∉ flow.source.key.toList ++ ['-'] := by simpa using sourcePlain
  rcases (List.append_cons_inj_of_notMem sourceArrow targetPlain).1 characters with
    ⟨sameSource, -, sameTarget⟩
  exact ⟨String.toList_inj.1 (List.append_cancel_right sameSource.symm),
    String.toList_inj.1 sameTarget.symm⟩

/-- No part of the span of a location is the end of an arrow, so it is the paths that matter. -/
theorem ends_eq_of_plain_paths (sourcePlain : ∀ path ∈ flow.source.location.path, '>' ∉ path.toList)
    (targetPlain : ∀ path ∈ flow.target.location.path, '>' ∉ path.toList)
    (same : other.key = flow.key) : other.ends = flow.ends := by
  rcases ends_eq_of_key_eq (Location.not_mem_toList_key rfl (by decide) sourcePlain)
    (Location.not_mem_toList_key rfl (by decide) targetPlain) same with ⟨sameSource, sameTarget⟩
  exact Prod.ext (Location.key_injective sameSource) (Location.key_injective sameTarget)

end Dataflow

namespace DefUse

variable {running further : DefUse} {source target : Reference}

theorem exists_meets_of_mem_flowsFrom (noDefinitions : running.definitions.toList = [])
    {flow : Dataflow} (isFlow : flow ∈ (further.flowsFrom running).toList) :
    ∃ source target, further.Meets running source target ∧ flow = .between source target := by
  rcases List.mem_map.1 (KeyedSet.mem_ofList isFlow) with ⟨⟨source, target⟩, isPair, rfl⟩
  exact ⟨source, target, (mem_reachingPairs_iff_meets noDefinitions).1 isPair, rfl⟩

theorem mem_keys_flowsFrom (noDefinitions : running.definitions.toList = []) {key : String} :
    key ∈ (further.flowsFrom running).keys ↔
      ∃ source target, further.Meets running source target ∧
        (Dataflow.between source target).key = key := by
  rw [flowsFrom, KeyedSet.mem_keys_ofList, List.map_map, List.mem_map]
  simp only [Prod.exists, mem_reachingPairs_iff_meets noDefinitions]
  rfl

/-- A pair has an edge between its locations, unless pairs between others have the same key. -/
theorem exists_mem_flowsFrom_of_meets (noDefinitions : running.definitions.toList = [])
    (meets : further.Meets running source target)
    (unambiguous : ∀ source' target', further.Meets running source' target' →
      (Dataflow.between source' target').key = (Dataflow.between source target).key →
      (Dataflow.between source' target').ends = (Dataflow.between source target).ends) :
    ∃ flow ∈ (further.flowsFrom running).toList,
      flow.ends = (source.owner.location, target.owner.location) := by
  have isKey := (mem_keys_flowsFrom noDefinitions).2 ⟨source, target, meets, rfl⟩
  rcases KeyedSet.mem_keys.1 isKey with ⟨flow, isFlow, sameKey⟩
  rcases exists_meets_of_mem_flowsFrom noDefinitions isFlow with ⟨source', target', meets', rfl⟩
  exact ⟨_, isFlow, unambiguous source' target' meets' sameKey⟩

/-- From the empty state statements leave exactly the last writers of every name, and what reaches a
further statement from there are its references that meet one of them. Between the locations of
statements that such references belong to there is one edge, if the text that tells edges apart
stands for these locations alone. -/
theorem foldl_update_lastWriters {statements : List DefUse}
    (ownLevels : ∀ statement ∈ statements, statement.HasOwnLevels)
    (plain : ∀ statement ∈ statements, statement.HasPlainNames) :
    let running := statements.foldl update empty
    running.definitions.toList = [] ∧
    (∀ reference, reference ∈ running.updates.toList ↔ ∃ before statement after,
      statements = before ++ statement :: after ∧ reference ∈ statement.definitions.toList ∧
      ∀ later ∈ after, ¬later.Refers .definition reference.name) ∧
    (∀ reference, reference ∈ running.uses.toList ↔ ∃ before statement after,
      statements = before ++ statement :: after ∧
      (reference ∈ statement.definitions.toList ∨ reference ∈ statement.updates.toList) ∧
      ∀ later ∈ after,
        ¬later.Refers .definition reference.name ∧ ¬later.Refers .update reference.name) ∧
    ∀ further : DefUse, further.HasOwnLevels → further.HasPlainNames →
      (∀ target, target ∈ (further.reachedFrom running).toList ↔
        ∃ source, further.Meets running source target) ∧
      ((further.flowsFrom running).toList.map Dataflow.ends).Nodup ∧
      (∀ flow ∈ (further.flowsFrom running).toList, ∃ source target,
        further.Meets running source target ∧ flow = .between source target) ∧
      (∀ key, key ∈ (further.flowsFrom running).keys ↔ ∃ source target,
        further.Meets running source target ∧ (Dataflow.between source target).key = key) ∧
      ∀ source target, further.Meets running source target →
        (∀ source' target', further.Meets running source' target' →
          (Dataflow.between source' target').key = (Dataflow.between source target).key →
          (Dataflow.between source' target').ends = (Dataflow.between source target).ends) →
        ∃ flow ∈ (further.flowsFrom running).toList,
          flow.ends = (source.owner.location, target.owner.location) := by
  intro running
  have lastBinds : ∀ {level reference}, reference ∈ (running.level level).toList ↔
      LastBinds statements level reference := mem_foldl_update_empty ownLevels plain
  have noDefinitions : running.definitions.toList = [] := by
    refine List.eq_nil_iff_forall_not_mem.2 fun reference isDefinition => ?_
    have isLeft : reference ∈ (running.level .definition).toList := isDefinition
    rcases (lastBinds.1 isLeft).exists_binds with ⟨-, -, source, isSource, -⟩
    exact absurd isSource List.not_mem_nil
  refine ⟨noDefinitions, fun reference => ?_, fun reference => ?_,
    fun further ownLevels plain => ⟨fun target => ?_, Dataflow.nodup_ends _,
      fun flow => exists_meets_of_mem_flowsFrom noDefinitions,
      fun key => mem_keys_flowsFrom noDefinitions,
      fun source target => exists_mem_flowsFrom_of_meets noDefinitions⟩⟩
  · change reference ∈ (running.level .update).toList ↔ _
    simp only [lastBinds, LastBinds, Binds, rebinds_update_iff]
    simp [Level.generatedBy, level]
  · change reference ∈ (running.level .use).toList ↔ _
    simp only [lastBinds, LastBinds, Binds, rebinds_use_iff]
    simp [Level.generatedBy, level, or_comm]
  · simp only [mem_reachedFrom ownLevels plain, mem_reachingPairs_iff_meets noDefinitions]

/-- The reference that a statement makes where it stands. -/
def occurrence (level : Level) (name : String) (location : Location) : Reference :=
  { kind := .plain, level, name, location, owner := ⟨.pass, location⟩ }

/-- A statement that binds a list, and one that mutates it. -/
def listWriters : List DefUse :=
  [ofReferences [occurrence .definition "xs" ⟨1, 0, 1, 7, none⟩],
    ofReferences [occurrence .update "xs" ⟨2, 0, 2, 4, none⟩]]

/-- A statement that reads the list and mutates it. -/
def listReader : DefUse :=
  ofReferences [occurrence .use "xs" ⟨3, 0, 3, 4, none⟩, occurrence .update "xs" ⟨3, 0, 3, 4, none⟩]

/-- The mutation is what a read of the list sees, and the binding is what a mutation of it sees. -/
theorem mem_flowsFrom_listWriters :
    let running := listWriters.foldl update empty
    (occurrence .definition "xs" ⟨1, 0, 1, 7, none⟩ ∈ running.updates.toList) ∧
    (∃ flow ∈ (listReader.flowsFrom running).toList,
      flow.ends = (⟨2, 0, 2, 4, none⟩, ⟨3, 0, 3, 4, none⟩)) ∧
    ∃ flow ∈ (listReader.flowsFrom running).toList,
      flow.ends = (⟨1, 0, 1, 7, none⟩, ⟨3, 0, 3, 4, none⟩) := by
  intro running
  have ownLevels : ∀ statement ∈ listWriters, statement.HasOwnLevels := by
    simp [listWriters, hasOwnLevels_ofReferences]
  have plain : ∀ statement ∈ listWriters, statement.HasPlainNames := by
    simp only [listWriters, List.forall_mem_cons]
    exact ⟨hasPlainNames_ofReferences (by decide), hasPlainNames_ofReferences (by decide), by simp⟩
  rcases foldl_update_lastWriters ownLevels plain with ⟨-, updates, uses, edges⟩
  have isBound : occurrence .definition "xs" ⟨1, 0, 1, 7, none⟩ ∈ running.updates.toList :=
    (updates _).2 ⟨[], _, _, rfl, List.mem_cons_self, by decide⟩
  have isMutated : occurrence .update "xs" ⟨2, 0, 2, 4, none⟩ ∈ running.uses.toList :=
    (uses _).2 ⟨[_], _, [], rfl, .inr List.mem_cons_self, by simp⟩
  have reads : occurrence .use "xs" ⟨3, 0, 3, 4, none⟩ ∈ listReader.uses.toList :=
    List.mem_cons_self
  have mutates : occurrence .update "xs" ⟨3, 0, 3, 4, none⟩ ∈ listReader.updates.toList :=
    List.mem_cons_self
  rcases edges listReader hasOwnLevels_ofReferences (hasPlainNames_ofReferences (by decide)) with
    ⟨-, -, -, -, drawn⟩
  refine ⟨isBound, drawn _ _ ⟨.inr ⟨isMutated, reads⟩, rfl⟩ fun _ _ _ => ?_,
    drawn _ _ ⟨.inl ⟨isBound, mutates⟩, rfl⟩ fun _ _ _ => ?_⟩
  · exact Dataflow.ends_eq_of_plain_paths (fun _ isPath => nomatch isPath)
      (fun _ isPath => nomatch isPath)
  · exact Dataflow.ends_eq_of_plain_paths (fun _ isPath => nomatch isPath)
      (fun _ isPath => nomatch isPath)

/-- A statement that binds `x` in one file and `y` in another. -/
def ambiguousWriter : DefUse :=
  ofReferences [occurrence .definition "x" ⟨1, 0, 1, 4, none⟩,
    occurrence .definition "y" ⟨1, 0, 1, 4, some "1:0-1:4->z"⟩]

/-- A statement that reads `x` in one file and `y` in another. -/
def ambiguousReader : DefUse :=
  ofReferences [occurrence .use "x" ⟨1, 0, 1, 4, some "z:1:0-1:4->w"⟩,
    occurrence .use "y" ⟨1, 0, 1, 4, some "w"⟩]

/-- Both names are bound at one place and read at another, but both of these pairs of places are
written `1:0-1:4->z:1:0-1:4->w:1:0-1:4`: only the first edge is kept. -/
theorem flowsFrom_ambiguousReader :
    let running := [ambiguousWriter].foldl update empty
    (ambiguousWriter.HasOwnLevels ∧ ambiguousWriter.HasPlainNames) ∧
    (ambiguousReader.HasOwnLevels ∧ ambiguousReader.HasPlainNames) ∧
    ∃ source target, ambiguousReader.Meets running source target ∧
      ∀ flow ∈ (ambiguousReader.flowsFrom running).toList,
        flow.ends ≠ (source.owner.location, target.owner.location) := by
  refine ⟨⟨hasOwnLevels_ofReferences, hasPlainNames_ofReferences (by decide)⟩,
    ⟨hasOwnLevels_ofReferences, hasPlainNames_ofReferences (by decide)⟩,
    occurrence .definition "y" ⟨1, 0, 1, 4, some "1:0-1:4->z"⟩,
    occurrence .use "y" ⟨1, 0, 1, 4, some "w"⟩, ⟨.inr ⟨?_, ?_⟩, rfl⟩, ?_⟩
  · exact List.mem_cons_of_mem _ List.mem_cons_self
  · exact List.mem_cons_of_mem _ List.mem_cons_self
  · decide +kernel

end DefUse

end FlowAnalysis
