import FlowAnalysis.Proofs.ControlFlow.Laying

/-!
# What a step of the construction has access to

A step appends statements to some blocks, draws edges from some, and draws edges to some or over a
jump; all else is new. `Layout.Moves` records this for a step between two layouts. The blocks that a
step has access to are listed, each with what may be done to it, so that steps are put together by
their lists.
-/

namespace FlowAnalysis

/-- The sort of a statement that jumps. -/
def Node.jump? (statement : Node) : Option Jump :=
  match statement.shape with
  | .raiseError _ => some .raising
  | .breakLoop => some .breaking
  | .continueLoop => some .continuing
  | _ => none

/-- The roles of the blocks to which jumps go. -/
def Jump.targetRoles : Jump → List BlockRole
  | .raising => [.handlers, .exceptionalExit]
  | .breaking => [.whileJoin, .forJoin]
  | .continuing => [.whileHead, .forHead]

/-- One of some statements is a jump that goes to the block. -/
def Surroundings.SendsTo (around : Surroundings) (statements : List Node) (target : BlockId) :
    Prop :=
  ∃ statement ∈ statements, ∃ jump, statement.jump? = some jump ∧ around.target? jump = some target

/-- The role of a block. -/
def roleAt (blocks : List Block) (id : BlockId) : Option BlockRole :=
  (blocks[id]?).map Block.role

/-- Jumps go to blocks that were made for them. -/
def Surroundings.Fits (around : Surroundings) (blocks : List Block) (bound : BlockId) : Prop :=
  ∀ jump target, around.target? jump = some target →
    target < bound ∧ ∃ role ∈ jump.targetRoles, roleAt blocks target = some role

/-- What may be done to a block. -/
inductive Access where
  /-- Edges may be drawn from it. -/
  | leave
  /-- It has a role, and edges may be drawn from it and to it. -/
  | enter (role : BlockRole)
  /-- Statements may be appended to it, and edges may be drawn from it. -/
  | write
deriving DecidableEq

namespace Layout

/-- The blocks in a list are there, with the roles that are listed. -/
structure Knows (layout : Layout) (known : List (BlockId × Access)) : Prop where
  lt : ∀ entry ∈ known, entry.1 < layout.size
  role : ∀ {id : BlockId} {role : BlockRole}, (id, Access.enter role) ∈ known →
    roleAt layout.blocks id = some role

/-- From one layout to another, nothing is done but what the list of known blocks admits, and the
blocks in a second list are known in the end. -/
structure Moves (around : Surroundings) (known : List (BlockId × Access)) (layout layout' : Layout)
    (results : List (BlockId × Access)) : Prop where
  size_le : layout.size ≤ layout'.size
  role_eq : ∀ id < layout.size, roleAt layout'.blocks id = roleAt layout.blocks id
  statements_subset : ∀ id, layout.statements id ⊆ layout'.statements id
  blocks_eq : ∀ id < layout.size, (id, Access.write) ∉ known →
    layout'.blocks[id]? = layout.blocks[id]?
  edges_iff : ∀ id < layout.size, id ∉ known.map Prod.fst → ∀ target,
    (id, target) ∈ layout'.edges ↔ (id, target) ∈ layout.edges
  entered : ∀ edge ∈ layout'.edges, edge ∈ layout.edges ∨ layout.size ≤ edge.2 ∨
    (∃ role, (edge.2, Access.enter role) ∈ known) ∨
      around.SendsTo (layout'.statements edge.1) edge.2
  inRange : layout'.InRange
  knows : layout'.Knows results
  origin : ∀ entry ∈ results, entry ∈ known ∨ layout.size ≤ entry.1

variable {around : Surroundings} {known known' results : List (BlockId × Access)}
  {layout middle layout' : Layout}

namespace Knows

theorem mono (knows : layout.Knows known') (fewer : known ⊆ known') : layout.Knows known :=
  ⟨fun entry isKnown => knows.lt entry (fewer isKnown), fun isKnown => knows.role (fewer isKnown)⟩

theorem append (knows : layout.Knows known) (knows' : layout.Knows known') :
    layout.Knows (known ++ known') := by
  constructor
  · intro entry isKnown
    exact (List.mem_append.1 isKnown).elim (knows.lt entry) (knows'.lt entry)
  · intro id role isKnown
    exact (List.mem_append.1 isKnown).elim knows.role knows'.role

theorem lt_of_mem_map (knows : layout.Knows known) {id : BlockId}
    (isKnown : id ∈ known.map Prod.fst) : id < layout.size := by
  rcases List.mem_map.1 isKnown with ⟨entry, isEntry, rfl⟩
  exact knows.lt entry isEntry

end Knows

theorem mem_blocks_append {id : BlockId} (isKnown : id ∈ known.map Prod.fst) :
    id ∈ (known' ++ known).map Prod.fst := by
  rw [List.map_append]
  exact List.mem_append_right _ isKnown

/-! ### Surroundings -/

theorem fits_insideLoop {kind : LoopKind} {head exit : BlockId} {bound : List Node}
    (fits : around.Fits layout.blocks layout.size) (knows : layout.Knows known)
    (isHead : (head, Access.enter kind.headRole) ∈ known)
    (isExit : (exit, Access.enter kind.joinRole) ∈ known) :
    (around.insideLoop ⟨head, exit⟩ bound).Fits layout.blocks layout.size := by
  intro jump target goes
  cases jump with
  | raising => exact fits .raising target goes
  | breaking =>
      rcases Option.some.inj goes with rfl
      refine ⟨knows.lt _ isExit, kind.joinRole, ?_, knows.role isExit⟩
      cases kind <;> decide
  | continuing =>
      rcases Option.some.inj goes with rfl
      refine ⟨knows.lt _ isHead, kind.headRole, ?_, knows.role isHead⟩
      cases kind <;> decide

theorem fits_guardedBy {dispatch : BlockId} (fits : around.Fits layout.blocks layout.size)
    (knows : layout.Knows known) (isDispatch : (dispatch, Access.enter .handlers) ∈ known) :
    (around.guardedBy dispatch).Fits layout.blocks layout.size := by
  intro jump target goes
  cases jump with
  | raising =>
      rcases Option.some.inj goes with rfl
      exact ⟨knows.lt _ isDispatch, .handlers, by decide, knows.role isDispatch⟩
  | breaking => exact fits .breaking target goes
  | continuing => exact fits .continuing target goes

theorem of_sendsTo_insideLoop {head exit target : BlockId} {bound statements : List Node}
    (sends : (around.insideLoop ⟨head, exit⟩ bound).SendsTo statements target) :
    target = head ∨ target = exit ∨ around.SendsTo statements target := by
  rcases sends with ⟨statement, isStatement, jump, isJump, goes⟩
  cases jump with
  | raising => exact .inr (.inr ⟨statement, isStatement, .raising, isJump, goes⟩)
  | breaking => exact .inr (.inl (Option.some.inj goes).symm)
  | continuing => exact .inl (Option.some.inj goes).symm

theorem of_sendsTo_guardedBy {dispatch target : BlockId} {statements : List Node}
    (sends : (around.guardedBy dispatch).SendsTo statements target) :
    target = dispatch ∨ around.SendsTo statements target := by
  rcases sends with ⟨statement, isStatement, jump, isJump, goes⟩
  cases jump with
  | raising => exact .inl (Option.some.inj goes).symm
  | breaking => exact .inr ⟨statement, isStatement, .breaking, isJump, goes⟩
  | continuing => exact .inr ⟨statement, isStatement, .continuing, isJump, goes⟩

/-! ### Putting steps together -/

namespace Moves

theorem knows_of_knows (moves : Moves around known layout layout' results)
    (knows : layout.Knows known') : layout'.Knows known' := by
  constructor
  · intro entry isKnown
    exact Nat.lt_of_lt_of_le (knows.lt entry isKnown) moves.size_le
  · intro id role isKnown
    rw [moves.role_eq id (knows.lt _ isKnown)]
    exact knows.role isKnown

theorem fits_below (moves : Moves around known layout layout' results) {inside : Surroundings}
    {bound : BlockId} (small : bound ≤ layout.size) (fits : inside.Fits layout.blocks bound) :
    inside.Fits layout'.blocks bound := by
  intro jump target goes
  rcases fits jump target goes with ⟨targetLt, role, isRole, hasRole⟩
  refine ⟨targetLt, role, isRole, ?_⟩
  rw [moves.role_eq target (Nat.lt_of_lt_of_le targetLt small), hasRole]

theorem fits (moves : Moves around known layout layout' results) {inside : Surroundings}
    (fits : inside.Fits layout.blocks layout.size) :
    inside.Fits layout'.blocks layout'.size := by
  intro jump target goes
  rcases moves.fits_below (Nat.le_refl _) fits jump target goes with ⟨small, hasRole⟩
  exact ⟨Nat.lt_of_lt_of_le small moves.size_le, hasRole⟩

theorem sendsTo (moves : Moves around known layout layout' results) {inside : Surroundings}
    {id target : BlockId} (sends : inside.SendsTo (layout.statements id) target) :
    inside.SendsTo (layout'.statements id) target := by
  rcases sends with ⟨statement, isStatement, jump, isJump, goes⟩
  exact ⟨statement, moves.statements_subset id isStatement, jump, isJump, goes⟩

theorem refl (inRange : layout.InRange) (knows : layout.Knows known) (fewer : results ⊆ known) :
    Moves around known layout layout results where
  size_le := Nat.le_refl _
  role_eq _ _ := rfl
  statements_subset _ := List.Subset.refl _
  blocks_eq _ _ _ := rfl
  edges_iff _ _ _ _ := Iff.rfl
  entered _ old := .inl old
  inRange := inRange
  knows := knows.mono fewer
  origin _ isResult := .inl (fewer isResult)

theorem mono (moves : Moves around known layout layout' results) (more : known ⊆ known') :
    Moves around known' layout layout' results where
  size_le := moves.size_le
  role_eq := moves.role_eq
  statements_subset := moves.statements_subset
  blocks_eq id small notKnown := moves.blocks_eq id small fun isKnown => notKnown (more isKnown)
  edges_iff id small notKnown :=
    moves.edges_iff id small fun isKnown => notKnown (List.map_subset _ more isKnown)
  entered edge drawn := by
    rcases moves.entered edge drawn with old | large | ⟨role, isKnown⟩ | sends
    · exact .inl old
    · exact .inr (.inl large)
    · exact .inr (.inr (.inl ⟨role, more isKnown⟩))
    · exact .inr (.inr (.inr sends))
  inRange := moves.inRange
  knows := moves.knows
  origin entry isResult := (moves.origin entry isResult).imp_left (more ·)

theorem weaken {results' : List (BlockId × Access)}
    (moves : Moves around known layout layout' results) (fewer : results' ⊆ results) :
    Moves around known layout layout' results' :=
  { moves with
    knows := moves.knows.mono fewer
    origin := fun entry isResult => moves.origin entry (fewer isResult) }

/-- A block that is known after a step was known before, or it is new. -/
theorem old_of_mem {between : List (BlockId × Access)}
    (first : Moves around known layout middle between) {entry : BlockId × Access}
    (isKnown : entry ∈ between ++ known) (small : entry.1 < layout.size) : entry ∈ known := by
  rcases List.mem_append.1 isKnown with isResult | old
  · rcases first.origin entry isResult with old | large
    · exact old
    · lia
  · exact old

theorem trans {between : List (BlockId × Access)}
    (first : Moves around known layout middle between)
    (second : Moves around (between ++ known) middle layout' results) :
    Moves around known layout layout' results := by
  have larger := first.size_le
  refine ⟨Nat.le_trans larger second.size_le, ?_, ?_, ?_, ?_, ?_, second.inRange, second.knows, ?_⟩
  · intro id small
    rw [second.role_eq id (by lia), first.role_eq id small]
  · exact fun id => List.Subset.trans (first.statements_subset id) (second.statements_subset id)
  · intro id small notKnown
    have notLater : (id, Access.write) ∉ between ++ known :=
      fun isKnown => notKnown (first.old_of_mem isKnown small)
    rw [second.blocks_eq id (by lia) notLater, first.blocks_eq id small notKnown]
  · intro id small notKnown target
    have notLater : id ∉ (between ++ known).map Prod.fst := by
      intro isKnown
      rcases List.mem_map.1 isKnown with ⟨entry, isEntry, rfl⟩
      exact notKnown (List.mem_map_of_mem (first.old_of_mem isEntry small))
    rw [second.edges_iff id (by lia) notLater, first.edges_iff id small notKnown]
  · intro edge drawn
    rcases second.entered edge drawn with old | large | ⟨role, isKnown⟩ | sends
    · rcases first.entered edge old with old | large | ⟨role, isKnown⟩ | sends
      · exact .inl old
      · exact .inr (.inl large)
      · exact .inr (.inr (.inl ⟨role, isKnown⟩))
      · exact .inr (.inr (.inr (second.sendsTo sends)))
    · exact .inr (.inl (Nat.le_trans larger large))
    · by_cases small : edge.2 < layout.size
      · exact .inr (.inr (.inl ⟨role, first.old_of_mem isKnown small⟩))
      · exact .inr (.inl (Nat.le_of_not_lt small))
    · exact .inr (.inr (.inr sends))
  · intro entry isResult
    rcases second.origin entry isResult with isKnown | large
    · by_cases small : entry.1 < layout.size
      · exact .inl (first.old_of_mem isKnown small)
      · exact .inr (Nat.le_of_not_lt small)
    · exact .inr (Nat.le_trans larger large)

/-- In the body of a loop, jumps may also go to the head and behind the loop. -/
theorem of_insideLoop {head exit : BlockId} {headRole exitRole : BlockRole} {bound : List Node}
    (moves : Moves (around.insideLoop ⟨head, exit⟩ bound) known layout layout' results)
    (isHead : (head, Access.enter headRole) ∈ known)
    (isExit : (exit, Access.enter exitRole) ∈ known) :
    Moves around known layout layout' results := by
  refine { moves with entered := fun edge drawn => ?_ }
  rcases moves.entered edge drawn with old | large | isKnown | sends
  · exact .inl old
  · exact .inr (.inl large)
  · exact .inr (.inr (.inl isKnown))
  · rcases of_sendsTo_insideLoop sends with toHead | toExit | sends
    · exact .inr (.inr (.inl ⟨headRole, toHead ▸ isHead⟩))
    · exact .inr (.inr (.inl ⟨exitRole, toExit ▸ isExit⟩))
    · exact .inr (.inr (.inr sends))

/-- Where handlers are around, jumps may also go to the block that dispatches them. -/
theorem of_guardedBy {dispatch : BlockId} {role : BlockRole}
    (moves : Moves (around.guardedBy dispatch) known layout layout' results)
    (isDispatch : (dispatch, Access.enter role) ∈ known) :
    Moves around known layout layout' results := by
  refine { moves with entered := fun edge drawn => ?_ }
  rcases moves.entered edge drawn with old | large | isKnown | sends
  · exact .inl old
  · exact .inr (.inl large)
  · exact .inr (.inr (.inl isKnown))
  · rcases of_sendsTo_guardedBy sends with toDispatch | sends
    · exact .inr (.inr (.inl ⟨role, toDispatch ▸ isDispatch⟩))
    · exact .inr (.inr (.inr sends))

/-! ### Single steps -/

theorem of_newBlock {around' : Surroundings} {role : BlockRole} {nodes : List Node} {id : BlockId}
    (inRange : layout.InRange) (run : (newBlock around' role nodes).run layout = (id, layout')) :
    Moves around known layout layout' [(id, .write), (id, .enter role)] := by
  cases run
  have isNew : ∀ {entry : BlockId × Access},
      entry ∈ [(layout.blocks.length, Access.write), (layout.blocks.length, Access.enter role)] →
        entry.1 = layout.size := by
    rintro entry isResult
    simp only [List.mem_cons, List.not_mem_nil, or_false] at isResult
    rcases isResult with rfl | rfl <;> rfl
  have kept : ∀ (block : Block), ∀ id < layout.size,
      (layout.blocks ++ [block])[id]? = layout.blocks[id]? :=
    fun block id small => List.getElem?_append_left small
  refine ⟨by simp [size], ?_, ?_, fun id small _ => kept _ id small, fun _ _ _ _ => Iff.rfl,
    fun _ old => .inl old, ?_, ⟨?_, ?_⟩, ?_⟩
  · intro id small
    exact congrArg _ (kept _ id small)
  · intro id
    by_cases small : id < layout.size
    · simp only [statements]
      rw [kept _ id small]
      exact List.Subset.refl _
    · have large : layout.blocks.length ≤ id := Nat.le_of_not_lt small
      simp [statements, List.getElem?_eq_none large]
  · intro edge drawn
    have := inRange edge drawn
    simp only [size, List.length_append, List.length_singleton] at this ⊢
    lia
  · intro entry isResult
    rw [isNew isResult]
    simp [size]
  · intro id role' isResult
    simp only [List.mem_cons, List.not_mem_nil, or_false, Prod.mk.injEq, reduceCtorEq, and_false,
      false_or, Access.enter.injEq] at isResult
    rcases isResult with ⟨rfl, rfl⟩
    simp [roleAt]
  · exact fun entry isResult => .inr (Nat.le_of_eq (isNew isResult).symm)

theorem of_link {source target : BlockId} {result : Unit} (inRange : layout.InRange)
    (knows : layout.Knows known) (isSource : source ∈ known.map Prod.fst)
    (targetLt : target < layout.size)
    (goes : (∃ role, (target, Access.enter role) ∈ known) ∨
      around.SendsTo (layout.statements source) target)
    (run : (link source target).run layout = (result, layout')) :
    Moves around known layout layout' [] := by
  rcases of_run_link run with ⟨blocksEq, memEdges⟩
  have sourceLt := knows.lt_of_mem_map isSource
  have statementsEq : layout'.statements = layout.statements := by
    funext id
    simp only [statements, blocksEq]
  have sizeEq : layout'.size = layout.size := by rw [size, blocksEq, size]
  refine ⟨by lia, by simp [blocksEq], by simp [statementsEq], by simp [blocksEq], ?_, ?_, ?_,
    ⟨by simp, by simp⟩, by simp⟩
  · intro id small notKnown next
    rw [memEdges]
    constructor
    · rintro (old | isNew)
      · exact old
      · cases isNew
        exact absurd isSource notKnown
    · exact .inl
  · intro edge drawn
    rcases (memEdges edge).1 drawn with old | rfl
    · exact .inl old
    · rw [statementsEq]
      exact .inr (.inr goes)
  · intro edge drawn
    rw [sizeEq]
    rcases (memEdges edge).1 drawn with old | rfl
    · exact inRange edge old
    · exact ⟨sourceLt, targetLt⟩

theorem of_append {id : BlockId} {statement : Node} {result : Unit} (inRange : layout.InRange)
    (isKnown : (id, Access.write) ∈ known)
    (run : (append id statement).run layout = (result, layout')) :
    Moves around known layout layout' [] := by
  cases run
  refine ⟨by simp [size], ?_, ?_, ?_, fun _ _ _ _ => Iff.rfl, fun _ old => .inl old, ?_,
    ⟨by simp, by simp⟩, by simp⟩
  · intro other _
    simp only [roleAt, List.getElem?_modify]
    cases layout.blocks[other]? with
    | none => rfl
    | some block =>
        simp only [Option.map_some]
        split <;> rfl
  · intro other
    simp only [statements, List.getElem?_modify]
    cases layout.blocks[other]? with
    | none => exact List.Subset.refl _
    | some block =>
        simp only [Option.map_some, Option.getD_some]
        split
        · exact List.subset_append_left _ _
        · exact List.Subset.refl _
  · intro other _ notKnown
    have differs : id ≠ other := by
      rintro rfl
      exact notKnown isKnown
    simp [differs]
  · intro edge drawn
    have := inRange edge drawn
    simpa [size] using this

end Moves

end Layout

end FlowAnalysis
