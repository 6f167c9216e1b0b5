import FlowAnalysis.Proofs.Analysis.FreeNames
import FlowAnalysis.Proofs.Analysis.Placeholder

/-!
# The names in targets

An assignment or a deletion writes to its targets: to bare names, also within tuples, lists and
starred targets, and to the variables beneath attributes and subscripts. It refers to every name
that it writes to, where the name stands. What it reads are its sources, the subscripts of what it
writes to, and, if it is an augmented assignment, its targets. The names in a target that are
neither written nor in a subscript are not referred to, such as those in a call whose result has its
attribute assigned.
-/

namespace FlowAnalysis

namespace Node

/-- The targets of an assignment or a deletion, with the level at which they are written. -/
def written? (statement : Node) : Option (Level × List Node) :=
  match statement.shape with
  | .assign op targets _ => some (if op.isSome then .update else .definition, targets)
  | .delete targets => some (.update, targets)
  | _ => none

/-- The expressions that an assignment or a deletion reads as a whole. -/
def readWhole (statement : Node) : List Node :=
  match statement.shape with
  | .assign op targets sources => if op.isSome then sources ++ targets else sources
  | _ => []

theorem level_ne_use_of_written {statement : Node} {level : Level} {targets : List Node}
    (isWritten : statement.written? = some (level, targets)) : level ≠ .use := by
  rw [written?] at isWritten
  split at isWritten
  · next op _ _ _ =>
      rcases isWritten with ⟨⟩
      cases op <;> simp
  · rcases isWritten with ⟨⟩
    decide
  · cases isWritten

theorem Writes.level_ne_use {level written : Level} {target part : Node}
    (writes : Writes level target written part) (isWriting : level ≠ .use) : written ≠ .use := by
  induction writes with
  | self => exact isWriting
  | tuple _ _ _ ih | list _ _ _ ih | starred _ _ ih => exact ih isWriting
  | dot _ _ ih | index _ _ ih => exact ih (by decide)

/-- An expression that an assignment or a deletion reads. -/
inductive Reads (statement expression : Node) : Prop
  | whole (isRead : expression ∈ statement.readWhole) : Reads statement expression
  | subscript {level targets target written part value args}
      (isWritten : statement.written? = some (level, targets)) (isTarget : target ∈ targets)
      (writes : Writes level target written part) (isIndex : part.shape = .index value args)
      (isArgument : expression ∈ args) : Reads statement expression

theorem target_mem_children {statement target : Node} {level : Level} {targets : List Node}
    (isWritten : statement.written? = some (level, targets)) (isTarget : target ∈ targets) :
    target ∈ statement.children := by
  rw [written?] at isWritten
  split at isWritten
  · next isAssigned =>
      rcases isWritten with ⟨⟩
      simp [children, isAssigned, Shape.children, Shape.fields, Field.subtrees, isTarget]
  · next isDeleted =>
      rcases isWritten with ⟨⟩
      simp [children, isDeleted, Shape.children, Shape.fields, Field.subtrees, isTarget]
  · cases isWritten

theorem Reads.walk_subset {statement expression : Node} (reads : statement.Reads expression) :
    expression.walk ⊆ statement.walk := by
  rcases reads with isRead | ⟨isWritten, isTarget, writes, isIndex, isArgument⟩
  · apply walk_subset_of_mem_children
    rw [readWhole] at isRead
    split at isRead
    · next isAssigned =>
        split at isRead <;>
          simp_all [children, Shape.children, Shape.fields, Field.subtrees, or_comm]
    · cases isRead
  · have isBeneath := walk_subset_of_mem_children (target_mem_children isWritten isTarget)
    apply List.Subset.trans _ (walk_subset_of_mem_walk (isBeneath writes.mem_walk))
    apply walk_subset_of_mem_children
    simp [children, isIndex, Shape.children, Shape.fields, Field.subtrees, isArgument]

end Node

namespace DefUse

variable {reference : Reference} {level : Level}

/-- There is a reference at a level to a name that stands at a location. -/
def RefersAt (defUse : DefUse) (level : Level) (name : String) (location : Location) : Prop :=
  ∃ reference ∈ (defUse.level level).toList,
    reference.name = name ∧ reference.location = location

instance (defUse : DefUse) (level : Level) (name : String) (location : Location) :
    Decidable (defUse.RefersAt level name location) :=
  inferInstanceAs (Decidable (∃ reference ∈ (defUse.level level).toList, _))

theorem mem_insert_of_mem {state : DefUse} {other : Reference}
    (isMember : reference ∈ (state.level level).toList) :
    reference ∈ ((state.insert other).level level).toList := by
  cases otherLevel : other.level <;> cases level <;>
    simp only [insert, otherLevel, DefUse.level] at isMember ⊢
  all_goals first
    | exact isMember
    | exact KeyedSet.mem_insert.2 (.inl isMember)

/-- References that come first stay, whatever keys the later ones have. -/
theorem exists_mem_ofReferences_append {first : List Reference} (rest : List Reference)
    (isGiven : reference ∈ first) :
    ∃ member ∈ first, member ∈ ((ofReferences (first ++ rest)).level reference.level).toList ∧
      member.key = reference.key := by
  rcases KeyedSet.mem_keys.1 (key_mem_ofReferences isGiven) with ⟨member, isMember, sameKey⟩
  refine ⟨member, (mem_of_mem_ofReferences isMember).1, ?_, sameKey⟩
  rw [ofReferences, List.foldl_append]
  change member ∈ ((rest.foldl insert (ofReferences first)).level reference.level).toList
  generalize ofReferences first = state at isMember ⊢
  induction rest generalizing state with
  | nil => exact isMember
  | cons other rest ih => exact ih _ (mem_insert_of_mem isMember)

theorem refersAt_of_mem {first rest : List Reference}
    (plain : ∀ reference ∈ first, reference.HasPlainName) (isGiven : reference ∈ first) :
    (ofReferences (first ++ rest)).RefersAt reference.level reference.name reference.location := by
  rcases exists_mem_ofReferences_append rest isGiven with ⟨member, isFirst, isMember, sameKey⟩
  have plainMember := plain member isFirst
  have plainGiven := plain reference isGiven
  refine ⟨member, isMember, ?_, ?_⟩
  · exact (Reference.name_level_eq_of_key_eq plainMember plainGiven sameKey).1
  · exact Location.key_injective (Reference.location_key_eq_of_key_eq plainMember plainGiven sameKey)

end DefUse

/-! ### The references of targets -/

section

variable {statement target part : Node} {level written : Level} {reference : Reference}

theorem mem_targetListReferences {targets : List Node} :
    reference ∈ targetListReferences statement level targets ↔
      ∃ target ∈ targets, reference ∈ targetReferences statement level none target := by
  induction targets with
  | nil => simp [targetListReferences]
  | cons first rest ih => simp [targetListReferences, ih]

/-- The references of a target are among those of the targets that it is written through. -/
theorem Node.Writes.exists_subset (writes : Node.Writes level target written part) (statement : Node)
    (inferred : Option TypeSpec) :
    ∃ inferred', targetReferences statement written inferred' part ⊆
      targetReferences statement level inferred target := by
  induction writes generalizing inferred with
  | self => exact ⟨inferred, List.Subset.refl _⟩
  | @tuple level target items item written part isTuple isItem _ ih =>
      rcases ih none with ⟨inferred', subset⟩
      refine ⟨inferred', fun reference isMember => ?_⟩
      rcases target with ⟨_, location⟩
      cases isTuple
      exact mem_targetListReferences.2 ⟨item, isItem, subset isMember⟩
  | @list level target items comp item written part isList isItem _ ih =>
      rcases ih none with ⟨inferred', subset⟩
      refine ⟨inferred', fun reference isMember => ?_⟩
      rcases target with ⟨_, location⟩
      cases isList
      exact mem_targetListReferences.2 ⟨item, isItem, subset isMember⟩
  | @starred level target value written part isStarred _ ih =>
      rcases target with ⟨_, location⟩
      cases isStarred
      exact ih none
  | @dot level target value name written part isDot _ ih =>
      rcases target with ⟨_, location⟩
      cases isDot
      exact ih none
  | @index level target value args written part isIndex _ ih =>
      rcases target with ⟨_, location⟩
      cases isIndex
      rcases ih none with ⟨inferred', subset⟩
      exact ⟨inferred', fun reference isMember => List.mem_append_left _ (subset isMember)⟩

theorem exists_mem_targetReferences_of_name (statement : Node) {id : String} (isName : part.shape = .name id)
    (inferred : Option TypeSpec) :
    ∃ reference ∈ targetReferences statement level inferred part,
      reference.level = level ∧ reference.name = id ∧ reference.location = part.location := by
  rcases part with ⟨_, location⟩
  cases isName
  exact ⟨_, List.mem_cons_self, rfl, rfl, rfl⟩

theorem nameUses_subset_targetReferences {value argument : Node} {args : List Node}
    (isIndex : part.shape = .index value args) (isArgument : argument ∈ args)
    (inferred : Option TypeSpec) :
    nameUses argument statement ⊆ targetReferences statement level inferred part := by
  rcases part with ⟨_, location⟩
  cases isIndex
  intro reference isUse
  exact List.mem_append_right _ (List.mem_flatMap.2 ⟨argument, isArgument, isUse⟩)

/-- What stands at a part of a target that is written: a name or a subscript. -/
inductive RefersTo (statement part : Node) (written : Level) (reference : Reference) : Prop
  | name (isName : part.shape = .name reference.name) (atLevel : reference.level = written)
      (sameLocation : reference.location = part.location) : RefersTo statement part written reference
  | subscript {value args argument} (isIndex : part.shape = .index value args)
      (isArgument : argument ∈ args) (isUse : reference ∈ nameUses argument statement) :
      RefersTo statement part written reference

mutual

theorem exists_part_of_mem_targetReferences (level : Level) (inferred : Option TypeSpec) :
    (target : Node) → reference ∈ targetReferences statement level inferred target →
      ∃ written part, Node.Writes level target written part ∧
        RefersTo statement part written reference
  | target, isMember => by
      unfold targetReferences at isMember
      split at isMember
      · rw [List.mem_singleton.1 isMember]
        exact ⟨level, _, .self, .name rfl rfl rfl⟩
      · rcases exists_part_of_mem_targetReferences _ _ _ isMember with ⟨written, part, writes, refers⟩
        exact ⟨written, part, .dot rfl writes, refers⟩
      · rcases List.mem_append.1 isMember with isMember | isUse
        · rcases exists_part_of_mem_targetReferences _ _ _ isMember with
            ⟨written, part, writes, refers⟩
          exact ⟨written, part, .index rfl writes, refers⟩
        · rcases List.mem_flatMap.1 isUse with ⟨argument, isArgument, isUse⟩
          exact ⟨level, _, .self, .subscript rfl isArgument isUse⟩
      · rcases exists_item_of_mem_targetListReferences _ _ isMember with
          ⟨item, isItem, written, part, writes, refers⟩
        exact ⟨written, part, .tuple rfl isItem writes, refers⟩
      · rcases exists_item_of_mem_targetListReferences _ _ isMember with
          ⟨item, isItem, written, part, writes, refers⟩
        exact ⟨written, part, .list rfl isItem writes, refers⟩
      · rcases exists_part_of_mem_targetReferences _ _ _ isMember with ⟨written, part, writes, refers⟩
        exact ⟨written, part, .starred rfl writes, refers⟩
      · cases isMember

theorem exists_item_of_mem_targetListReferences (level : Level) :
    (targets : List Node) → reference ∈ targetListReferences statement level targets →
      ∃ target ∈ targets, ∃ written part, Node.Writes level target written part ∧
        RefersTo statement part written reference
  | [], isMember => nomatch isMember
  | target :: rest, isMember => by
      rcases List.mem_append.1 isMember with isMember | isMember
      · exact ⟨target, List.mem_cons_self, exists_part_of_mem_targetReferences _ _ _ isMember⟩
      · rcases exists_item_of_mem_targetListReferences _ rest isMember with ⟨item, isItem, refers⟩
        exact ⟨item, List.mem_cons_of_mem _ isItem, refers⟩

end

end

namespace Analysis

section

variable {statement expression : Node} {level : Level} {targets : List Node}
  {types : List (Option TypeSpec)} {reference : Reference}

theorem exists_target_of_mem_assignedReferences
    (isMember : reference ∈ assignedReferences statement level targets types) :
    ∃ target ∈ targets, ∃ inferred, reference ∈ targetReferences statement level inferred target := by
  induction targets generalizing types with
  | nil => cases isMember
  | cons first rest ih =>
      rcases List.mem_append.1 isMember with isFirst | isLater
      · exact ⟨first, List.mem_cons_self, _, isFirst⟩
      · rcases ih isLater with ⟨target, isTarget, inferred, isMember⟩
        exact ⟨target, List.mem_cons_of_mem _ isTarget, inferred, isMember⟩

theorem exists_subset_assignedReferences (statement : Node) (types : List (Option TypeSpec))
    {target : Node} (isTarget : target ∈ targets) :
    ∃ inferred, targetReferences statement level inferred target ⊆
      assignedReferences statement level targets types := by
  induction targets generalizing types with
  | nil => cases isTarget
  | cons first rest ih =>
      rcases List.mem_cons.1 isTarget with rfl | isLater
      · exact ⟨_, List.subset_append_left _ _⟩
      · rcases ih _ isLater with ⟨inferred, subset⟩
        exact ⟨inferred, List.Subset.trans subset (List.subset_append_right _ _)⟩

/-- The references of the targets of an assignment or a deletion, and of what it reads as a
whole. -/
def writingReferences (statement : Node) (level : Level) (targets : List Node)
    (types : List (Option TypeSpec)) : List Reference :=
  assignedReferences statement level targets types ++
    statement.readWhole.flatMap fun expression => nameUses expression statement

theorem exists_own_eq_of_written {transfer : Transfer} {own : List Reference}
    {analyzer between : Analyzer} (isWritten : statement.written? = some (level, targets))
    (run : (ownReferences transfer statement).run analyzer = .ok (own, between)) :
    ∃ types, own = writingReferences statement level targets types := by
  have deleted : ∀ targets, targetListReferences statement .update targets =
      assignedReferences statement .update targets [] := by
    intro targets
    induction targets with
    | nil => rfl
    | cons first rest ih => rw [targetListReferences, assignedReferences, ih]; rfl
  rw [Node.written?] at isWritten
  rw [ownReferences] at run
  simp only [writingReferences, Node.readWhole]
  split at isWritten
  · next op targets sources isAssigned =>
      rw [isAssigned] at run ⊢
      rcases isWritten with ⟨⟩
      rcases exists_of_run_bind run with ⟨_, _, ⟨⟩, ⟨⟩⟩
      exact ⟨_, rfl⟩
  · next targets isDeleted =>
      rw [isDeleted] at run ⊢
      rcases isWritten with ⟨⟩
      rcases run with ⟨⟩
      exact ⟨[], by rw [deleted, List.flatMap_nil, List.append_nil]⟩
  · cases isWritten

theorem opensNamedScope_of_written (isWritten : statement.written? = some (level, targets)) :
    opensNamedScope statement = false := by
  rw [Node.written?] at isWritten
  rw [opensNamedScope]
  split at isWritten
  · next isAssigned => rw [isAssigned]
  · next isDeleted => rw [isDeleted]
  · cases isWritten

/-- What an assignment or a deletion refers to on its own is a name that it writes to, or it is in
an expression that it reads. -/
theorem exists_written_or_read_of_mem (isWritten : statement.written? = some (level, targets))
    (isOwn : reference ∈ writingReferences statement level targets types) :
    (∃ target ∈ targets, ∃ part, Node.Writes level target reference.level part ∧
      part.shape = .name reference.name ∧ reference.location = part.location) ∨
    ∃ expression, statement.Reads expression ∧ reference ∈ nameUses expression statement := by
  rcases List.mem_append.1 isOwn with isOwn | isOwn
  · rcases exists_target_of_mem_assignedReferences isOwn with
      ⟨target, isTarget, inferred, isMember⟩
    rcases exists_part_of_mem_targetReferences _ _ _ isMember with ⟨written, part, writes, refers⟩
    rcases refers with ⟨isName, rfl, sameLocation⟩ | ⟨isIndex, isArgument, isUse⟩
    · exact .inl ⟨target, isTarget, part, writes, isName, sameLocation⟩
    · exact .inr ⟨_, .subscript isWritten isTarget writes isIndex isArgument, isUse⟩
  · rcases List.mem_flatMap.1 isOwn with ⟨expression, isRead, isUse⟩
    exact .inr ⟨expression, .whole isRead, isUse⟩

theorem mentions_of_mem_own (isWritten : statement.written? = some (level, targets))
    (isOwn : reference ∈ writingReferences statement level targets types) :
    statement.Mentions reference.name := by
  rcases exists_written_or_read_of_mem isWritten isOwn with
    ⟨target, isTarget, part, writes, isName, -⟩ | ⟨expression, reads, isUse⟩
  · have isBeneath := Node.walk_subset_of_mem_children (Node.target_mem_children isWritten isTarget)
    exact ⟨part, isBeneath writes.mem_walk, isName⟩
  · rcases mem_nameUses.1 isUse with ⟨id, occurrence, free, -, rfl⟩
    rcases free.mem_walk with ⟨isInside, isName⟩
    exact ⟨occurrence, reads.walk_subset isInside, isName⟩

/-- An assignment or a deletion refers to the names that it writes to. -/
theorem exists_mem_of_writes {target part : Node} {written : Level} {id : String}
    (isTarget : target ∈ targets) (writes : Node.Writes level target written part)
    (isName : part.shape = .name id) :
    ∃ reference ∈ writingReferences statement level targets types,
      reference.level = written ∧ reference.name = id ∧ reference.location = part.location := by
  rcases exists_subset_assignedReferences statement types isTarget with ⟨inferred, subset⟩
  rcases writes.exists_subset statement inferred with ⟨inferred', subset'⟩
  rcases exists_mem_targetReferences_of_name statement isName inferred' with
    ⟨reference, isMember, found⟩
  exact ⟨reference, List.mem_append_left _ (subset (subset' isMember)), found⟩

/-- An assignment or a deletion refers to the names in what it reads. -/
theorem nameUses_subset_of_reads (isWritten : statement.written? = some (level, targets))
    (reads : statement.Reads expression) :
    nameUses expression statement ⊆ writingReferences statement level targets types := by
  intro reference isUse
  rcases reads with isRead | ⟨isWritten', isTarget, writes, isIndex, isArgument⟩
  · exact List.mem_append_right _ (List.mem_flatMap.2 ⟨expression, isRead, isUse⟩)
  · rcases isWritten.symm.trans isWritten' with ⟨⟩
    rcases exists_subset_assignedReferences statement types isTarget with ⟨inferred, subset⟩
    rcases writes.exists_subset statement inferred with ⟨inferred', subset'⟩
    have isPartUse := subset' (nameUses_subset_targetReferences isIndex isArgument _ isUse)
    exact List.mem_append_left _ (subset isPartUse)

end

section

variable {statement : Node} (running : RefSet) {analyzer : Analyzer} {level : Level}
  {targets : List Node} (isWritten : statement.written? = some (level, targets))
  (unknown : analyzer.cached? statement = none)
  (plain : ∀ id, statement.Mentions id → ':' ∉ id.toList)

include isWritten unknown plain

/-- An assignment or a deletion refers to every name that it writes to, at the level at which it
writes, and uses every name that is not captured in what it reads; and it uses no other name where
the name stands. -/
theorem exists_defUse_refersAt :
    ∃ found after, (defUse statement running).run analyzer = .ok (found, after) ∧
      ∀ {id occurrence}, occurrence.shape = .name id →
        (∀ target ∈ targets, ∀ written, Node.Writes level target written occurrence →
          found.RefersAt written id occurrence.location) ∧
        (∀ expression, statement.Reads expression → occurrence ∈ expression.walk →
          ¬expression.Captures id → found.RefersAt .use id occurrence.location) ∧
        (statement.locations.Nodup → occurrence ∈ statement.walk →
          found.RefersAt .use id occurrence.location →
            ∃ expression, statement.Reads expression ∧ occurrence ∈ expression.walk ∧
              ¬expression.Captures id) := by
  rcases (safe_defUse statement running).exists_run analyzer with ⟨found, after, run⟩
  refine ⟨found, after, run, ?_⟩
  intro id occurrence isName
  rcases exists_own_of_run_defUse unknown run with ⟨own, between, refers, -, composed⟩
  rcases exists_own_eq_of_written isWritten refers with ⟨types, rfl⟩
  rw [composed (opensNamedScope_of_written isWritten), List.append_assoc]
  have plainOwn : ∀ reference ∈ writingReferences statement level targets types,
      reference.HasPlainName := by
    intro reference isOwn
    exact plain _ (mentions_of_mem_own isWritten isOwn)
  refine ⟨?_, ?_, ?_⟩
  · intro target isTarget written writes
    rcases exists_mem_of_writes isTarget writes isName with
      ⟨reference, isMember, rfl, rfl, sameLocation⟩
    rw [← sameLocation]
    exact DefUse.refersAt_of_mem plainOwn isMember
  · intro expression reads isBeneath spared
    have isUse : Reference.atNode .use id occurrence statement ∈ nameUses expression statement :=
      mem_nameUses.2 ⟨id, occurrence, Node.free_of_not_captures isBeneath isName spared, spared, rfl⟩
    exact DefUse.refersAt_of_mem plainOwn (nameUses_subset_of_reads isWritten reads isUse)
  · rintro distinct isInside ⟨reference, isUse, rfl, sameLocation⟩
    rcases DefUse.mem_of_mem_ofReferences isUse with ⟨isGiven, isUseLevel⟩
    rcases List.mem_append.1 isGiven with isOwn | isOther
    · rcases exists_written_or_read_of_mem isWritten isOwn with
        ⟨target, isTarget, part, writes, -⟩ | ⟨expression, reads, isUse⟩
      · exact absurd isUseLevel (writes.level_ne_use (Node.level_ne_use_of_written isWritten))
      · rcases mem_nameUses.1 isUse with ⟨id, reader, free, spared, rfl⟩
        -- locations are distinct, so the use is at the occurrence itself
        have same : reader = occurrence := by
          have isReader := reads.walk_subset free.mem_walk.1
          have isListed : reader.location ∈ occurrence.location :: occurrence.bindingLocations :=
            sameLocation ▸ List.mem_cons_self
          exact Node.eq_of_mem_flatMap distinct isReader isInside List.mem_cons_self isListed
        exact ⟨expression, reads, same ▸ free.mem_walk.1, spared⟩
    · rcases List.mem_append.1 isOther with isCalled | isDeclared
      · rcases mem_callUpdates_iff.1 isCalled with ⟨_, -, _, _, -, _, -, rfl⟩
        cases isUseLevel
      · rw [level_of_mem_declaredDefinitions isDeclared] at isUseLevel
        cases isUseLevel

end

/-! ### Targets whose names are all referred to, and targets with names that are not -/

def boundName : Node :=
  onLine 1 0 1 (.name "x")

def updatedName : Node :=
  onLine 1 3 4 (.name "y")

def subscriptName : Node :=
  onLine 1 7 8 (.name "i")

/-- A target `y.b[i]`. -/
def subscriptTarget : Node :=
  onLine 1 3 9 (.index (onLine 1 3 6 (.dot updatedName "b")) [subscriptName])

def pairTarget : Node :=
  onLine 1 0 9 (.tuple [boundName, subscriptTarget])

/-- An assignment `x, y.b[i] = z`. -/
def pairAssignment : Node :=
  onLine 1 0 13 (.assign none [pairTarget] [onLine 1 12 13 (.name "z")])

/-- A bare name is defined, the base of a subscript is updated, and the subscript is used. -/
theorem refersAt_pairAssignment : ∃ found after,
    (defUse pairAssignment .empty).run (.ofSpecs []) = .ok (found, after) ∧
      found.RefersAt .definition "x" boundName.location ∧
      found.RefersAt .update "y" updatedName.location ∧
      found.RefersAt .use "i" subscriptName.location := by
  rcases exists_defUse_refersAt .empty
    (rfl : pairAssignment.written? = some (.definition, [pairTarget]))
    (rfl : (Analyzer.ofSpecs []).cached? pairAssignment = none)
    (Node.plain_of_walk (by decide +kernel)) with ⟨found, after, run, refers⟩
  have writesSubscript : Node.Writes .definition pairTarget .definition subscriptTarget :=
    .tuple rfl (List.mem_cons_of_mem _ List.mem_cons_self) .self
  have writesUpdated : Node.Writes .definition pairTarget .update updatedName :=
    .tuple rfl (List.mem_cons_of_mem _ List.mem_cons_self) (.index rfl (.dot rfl .self))
  have reads : pairAssignment.Reads subscriptName :=
    .subscript rfl List.mem_cons_self writesSubscript rfl List.mem_cons_self
  refine ⟨found, after, run, ?_, ?_, ?_⟩
  · exact (refers rfl).1 pairTarget List.mem_cons_self _ (.tuple rfl List.mem_cons_self .self)
  · exact (refers rfl).1 pairTarget List.mem_cons_self _ writesUpdated
  · apply (refers rfl).2.1 subscriptName reads (Node.self_mem_walk _)
    exact mt Node.captures_iff.1 (by decide +kernel)

def calledName : Node :=
  onLine 1 0 1 (.name "f")

def passedName : Node :=
  onLine 1 2 3 (.name "x")

def calledBase : Node :=
  onLine 1 0 4 (.call calledName [⟨passedName, none, false, false⟩])

def resultTarget : Node :=
  onLine 1 0 6 (.dot calledBase "a")

/-- An assignment `f(x).a = 1`. -/
def resultAssignment : Node :=
  onLine 1 0 10 (.assign none [resultTarget] [onLine 1 9 10 (.literal (.natural 1))])

/-- The names in a call whose result has its attribute assigned are not referred to where they
stand. -/
theorem not_refersAt_resultAssignment :
    resultAssignment.locations.Nodup ∧
    resultAssignment.written? = some (.definition, [resultTarget]) ∧
    Node.Free "f" resultTarget calledName ∧ Node.Free "x" resultTarget passedName ∧
    (∀ id, ¬resultTarget.Captures id) ∧
    ∃ found after, (defUse resultAssignment .empty).run (.ofSpecs []) = .ok (found, after) ∧
      ∀ level, ¬found.RefersAt level "f" calledName.location ∧
        ¬found.RefersAt level "x" passedName.location := by
  have freeCalled : Node.Free "f" calledBase calledName := .outer List.mem_cons_self (.name rfl)
  have freePassed : Node.Free "x" calledBase passedName :=
    .outer (List.mem_cons_of_mem _ List.mem_cons_self) (.name rfl)
  refine ⟨by decide +kernel, rfl, .outer List.mem_cons_self freeCalled,
    .outer List.mem_cons_self freePassed, ?_, ?_⟩
  · intro id captures
    have nothing : resultTarget.walk.flatMap Node.innerBindings = [] := by decide +kernel
    rw [Node.captures_iff, nothing] at captures
    cases captures
  · rcases (safe_defUse resultAssignment .empty).exists_run (.ofSpecs []) with ⟨found, after, run⟩
    refine ⟨found, after, run, fun level => ?_⟩
    have absent := holds_of_run (fun outcome : DefUse × Analyzer => ∀ level ∈ Level.all,
      ¬outcome.1.RefersAt level "f" calledName.location ∧
        ¬outcome.1.RefersAt level "x" passedName.location) (by decide +kernel) run
    exact absent level level.mem_all

end Analysis

end FlowAnalysis
