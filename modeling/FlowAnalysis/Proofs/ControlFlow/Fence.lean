import FlowAnalysis.Proofs.ControlFlow.Access
import FlowAnalysis.Proofs.ControlFlow.Placement

/-!
# What comes last is not passed by

The blocks of a guarded body that has a last clause are numbered in a row: the join, then those of
the handlers, the body and the `else` clause, then those of the last clause. A `Fence` records where
they lie, and `Fence.Encloses` says how control leaves the blocks in front of the last clause. A
step that has no access to these blocks leaves that as it is, so fences are put up while the
commands are laid out and stand from then on (`Layout.Follows`).
-/

namespace FlowAnalysis

namespace Command

mutual

/-- The guarded bodies with a last clause in a command, inner ones first. -/
def closings : Command → List Command
  | .place _ => []
  | .jump .. => []
  | .branch _ body rest => closingsOfAll body ++ closingsOfAlternatives rest
  | .loop _ _ _ body orelse => closingsOfAll body ++ closingsOfAll orelse
  | .bracket _ body => closingsOfAll body
  | .guarded body handlers orelse finalbody =>
      closingsOfHandlers handlers ++ closingsOfAll body ++ closingsOfAll orelse ++
        closingsOfAll finalbody ++
          if finalbody.isEmpty then [] else [.guarded body handlers orelse finalbody]

def closingsOfAll : List Command → List Command
  | [] => []
  | command :: rest => closings command ++ closingsOfAll rest

def closingsOfAlternatives : Alternatives → List Command
  | .none => []
  | .further _ body rest => closingsOfAll body ++ closingsOfAlternatives rest
  | .otherwise _ body => closingsOfAll body

def closingsOfHandlers : List (List Command) → List Command
  | [] => []
  | handler :: rest => closingsOfAll handler ++ closingsOfHandlers rest

end

mutual

/-- The statement of a jump is a jump of that sort. -/
def JumpsByName : Command → Prop
  | .place _ => True
  | .jump target statement => statement.jump? = some target
  | .branch _ body rest => AllJumpByName body ∧ AlternativesJumpByName rest
  | .loop _ _ _ body orelse => AllJumpByName body ∧ AllJumpByName orelse
  | .bracket _ body => AllJumpByName body
  | .guarded body handlers orelse finalbody =>
      AllJumpByName body ∧ HandlersJumpByName handlers ∧ AllJumpByName orelse ∧
        AllJumpByName finalbody

def AllJumpByName : List Command → Prop
  | [] => True
  | command :: rest => JumpsByName command ∧ AllJumpByName rest

def AlternativesJumpByName : Alternatives → Prop
  | .none => True
  | .further _ body rest => AllJumpByName body ∧ AlternativesJumpByName rest
  | .otherwise _ body => AllJumpByName body

def HandlersJumpByName : List (List Command) → Prop
  | [] => True
  | handler :: rest => AllJumpByName handler ∧ HandlersJumpByName rest

end

theorem alternativesJumpByName_ofClause {header : Node} {body : List Command}
    (byName : AllJumpByName body) : AlternativesJumpByName (.ofClause header body) := by
  rw [Alternatives.ofClause]
  split
  · trivial
  · exact byName

mutual

theorem jumpsByName_ofNode : (statement : Node) → JumpsByName (ofNode statement)
  | ⟨shape, location⟩ => by
      cases shape
      case conditional cond body elifs orelse =>
        rw [ofNode]
        refine ⟨allJumpByName_ofNodes body, ?_⟩
        exact alternativesJumpByName_ofClauses elifs (alternativesJumpByName_ofOrelse orelse)
      case whileLoop cond body orelse =>
        exact ⟨allJumpByName_ofNodes body, allJumpByName_ofNodes orelse⟩
      case forLoop targets iter body orelse declLocation =>
        exact ⟨allJumpByName_ofNodes body, allJumpByName_ofNodes orelse⟩
      case withBlock items body => exact allJumpByName_ofNodes body
      case tryBlock body handlers orelse finalbody =>
        exact ⟨allJumpByName_ofNodes body, handlersJumpByName_ofHandlers handlers,
          allJumpByName_ofNodes orelse, allJumpByName_ofNodes finalbody⟩
      case raiseError error => exact rfl
      case breakLoop => exact rfl
      case continueLoop => exact rfl
      all_goals trivial

theorem allJumpByName_ofNodes : (statements : List Node) → AllJumpByName (ofNodes statements)
  | [] => trivial
  | statement :: rest => ⟨jumpsByName_ofNode statement, allJumpByName_ofNodes rest⟩

theorem alternativesJumpByName_ofClauses : (elifs : List (ElifClause Node)) →
    {last : Alternatives} → AlternativesJumpByName last →
      AlternativesJumpByName (ofClauses elifs last)
  | [], _, byName => byName
  | ⟨_, body⟩ :: rest, _, byName =>
      ⟨allJumpByName_ofNodes body, alternativesJumpByName_ofClauses rest byName⟩

theorem alternativesJumpByName_ofOrelse : (orelse : Option Node) →
    AlternativesJumpByName (ofOrelse orelse)
  | none => trivial
  | some ⟨shape, location⟩ => by
      cases shape
      case elseClause body => exact alternativesJumpByName_ofClause (allJumpByName_ofNodes body)
      case module code => exact alternativesJumpByName_ofClause (allJumpByName_ofNodes code)
      case definition name params body decorators =>
        exact alternativesJumpByName_ofClause (allJumpByName_ofNodes body)
      case classDefinition name bases body decorators =>
        exact alternativesJumpByName_ofClause (allJumpByName_ofNodes body)
      all_goals trivial

theorem handlersJumpByName_ofHandlers : (handlers : List (ExceptHandler Node)) →
    HandlersJumpByName (ofHandlers handlers)
  | [] => trivial
  | ⟨some _, some _, body, _⟩ :: rest =>
      ⟨⟨trivial, allJumpByName_ofNodes body⟩, handlersJumpByName_ofHandlers rest⟩
  | ⟨some cond, none, body, _⟩ :: rest =>
      ⟨⟨jumpsByName_ofNode cond, allJumpByName_ofNodes body⟩, handlersJumpByName_ofHandlers rest⟩
  | ⟨none, _, body, _⟩ :: rest =>
      ⟨allJumpByName_ofNodes body, handlersJumpByName_ofHandlers rest⟩

end

end Command

/-- Where a guarded body with a last clause lies. -/
structure Fence where
  body : List Command
  handlers : List (List Command)
  orelse : List Command
  finalbody : List Command
  /-- Where the jumps in it go. -/
  around : Surroundings
  /-- The block behind it. -/
  join : BlockId
  /-- The first block of the last clause. -/
  last : BlockId
  /-- The number behind its blocks. -/
  stop : BlockId

/-- The statements of the blocks from one number up to another. -/
def statementsBetween (blocks : List Block) (low high : BlockId) : List Node :=
  ((blocks.take high).drop low).flatMap Block.statements

/-- The statements of a block. -/
def statementsAt (blocks : List Block) (id : BlockId) : List Node :=
  ((blocks[id]?).map Block.statements).getD []

namespace Fence

def command (fence : Fence) : Command :=
  .guarded fence.body fence.handlers fence.orelse fence.finalbody

/-- The block was made for the body, for a handler or for the `else` clause. -/
def Guards (fence : Fence) (id : BlockId) : Prop :=
  fence.join < id ∧ id < fence.last

/-- The block was made for some part. -/
def Covers (fence : Fence) (id : BlockId) : Prop :=
  fence.join < id ∧ id < fence.stop

/-- The blocks of the last clause are behind those of the other parts. An edge that leaves these
goes to the first block of the last clause, unless it is the edge of a jump. -/
structure Encloses (fence : Fence) (blocks : List Block) (edges : List (BlockId × BlockId)) :
    Prop where
  join_lt : fence.join < fence.last
  last_lt : fence.last < fence.stop
  stop_le : fence.stop ≤ blocks.length
  join_role : roleAt blocks fence.join = some .tryJoin
  last_role : roleAt blocks fence.last = some .finallyBody
  guarded : (statementsBetween blocks (fence.join + 1) fence.last).Perm
    ((Command.nestingHandlers fence.handlers).labels ++ ((Command.nestingAll fence.body).labels ++
      (Command.nestingAll fence.orelse).labels))
  lastly : (statementsBetween blocks fence.last fence.stop).Perm
    (Command.nestingAll fence.finalbody).labels
  fits : fence.around.Fits blocks fence.join
  leaves : ∀ edge ∈ edges, fence.Guards edge.1 → fence.Guards edge.2 ∨ edge.2 = fence.last ∨
    fence.around.SendsTo (statementsAt blocks edge.1) edge.2

end Fence

theorem statementsBetween_congr {blocks blocks' : List Block} {low high : BlockId}
    (same : ∀ id, low ≤ id → id < high → blocks'[id]? = blocks[id]?) :
    statementsBetween blocks' low high = statementsBetween blocks low high := by
  have sameBlocks : (blocks'.take high).drop low = (blocks.take high).drop low := by
    apply List.ext_getElem?
    intro index
    simp only [List.getElem?_drop, List.getElem?_take]
    split
    · exact same _ (Nat.le_add_right _ _) ‹_›
    · rfl
  rw [statementsBetween, sameBlocks, statementsBetween]

namespace Layout

open Command

variable {around : Surroundings} {known known' results : List (BlockId × Access)}
  {layout middle layout' : Layout} {fence : Fence}

/-- A step that has no access to the blocks of a fence leaves it as it is. -/
theorem encloses_of_moves (moves : Moves around known layout layout' results)
    (encloses : fence.Encloses layout.blocks layout.edges)
    (aside : ∀ entry ∈ known, ¬ fence.Covers entry.1) :
    fence.Encloses layout'.blocks layout'.edges := by
  have joinLt := encloses.join_lt
  have lastLt := encloses.last_lt
  have stopLe : fence.stop ≤ layout.size := encloses.stop_le
  have kept : ∀ id, fence.join + 1 ≤ id → id < fence.stop →
      layout'.blocks[id]? = layout.blocks[id]? := by
    intro id large small
    apply moves.blocks_eq id (by lia)
    exact fun isKnown => aside _ isKnown ⟨large, small⟩
  refine ⟨joinLt, lastLt, Nat.le_trans stopLe moves.size_le, ?_, ?_, ?_, ?_, ?_, ?_⟩
  · rw [moves.role_eq _ (by lia), encloses.join_role]
  · rw [moves.role_eq _ (by lia), encloses.last_role]
  · rw [statementsBetween_congr fun id large small => kept id large (by lia)]
    exact encloses.guarded
  · rw [statementsBetween_congr fun id large small => kept id (by lia) small]
    exact encloses.lastly
  · exact moves.fits_below (by lia) encloses.fits
  · intro edge drawn guards
    have covered : fence.Covers edge.1 := ⟨guards.1, Nat.lt_trans guards.2 lastLt⟩
    have notKnown : edge.1 ∉ known.map Prod.fst := by
      intro isKnown
      rcases List.mem_map.1 isKnown with ⟨entry, isEntry, same⟩
      exact aside entry isEntry (same ▸ covered)
    rw [statementsAt, kept edge.1 covered.1 covered.2]
    apply encloses.leaves edge _ guards
    exact (moves.edges_iff edge.1 (Nat.lt_of_lt_of_le covered.2 stopLe) notKnown edge.2).1 drawn

/-- Fences are put up around some commands on the way from one layout to another, away from the
blocks that are known in the end. -/
structure Fenced (commands : List Command) (layout layout' : Layout)
    (results : List (BlockId × Access)) (fences : List Fence) : Prop where
  commands_eq : fences.map Fence.command = commands
  encloses : ∀ fence ∈ fences, fence.Encloses layout'.blocks layout'.edges
  size_le : ∀ fence ∈ fences, layout.size ≤ fence.join
  aside : ∀ fence ∈ fences, ∀ entry ∈ results, ¬ fence.Covers entry.1
  distinct : (fences.map Fence.join).Nodup

/-- A step does what the list of known blocks admits and puts up fences around some commands. -/
def Follows {α : Type} (around : Surroundings) (known : List (BlockId × Access))
    (step : StateM Layout α) (commands : List Command) (results : α → List (BlockId × Access)) :
    Prop :=
  ∀ ⦃layout layout' : Layout⦄ ⦃value : α⦄, layout.Knows known →
    around.Fits layout.blocks layout.size → layout.InRange → step.run layout = (value, layout') →
      Moves around known layout layout' (results value) ∧
        ∃ fences, Fenced commands layout layout' (results value) fences

theorem Fenced.nil (layout layout' : Layout) (results : List (BlockId × Access)) :
    Fenced [] layout layout' results [] :=
  ⟨rfl, by simp, by simp, by simp, List.nodup_nil⟩

/-- One more fence behind others that were put up after its join. -/
theorem Fenced.close {commands : List Command} {fences : List Fence} {access : Access}
    (larger : layout.size < middle.size)
    (fenced : Fenced commands middle layout' [(fence.join, access)] fences)
    (encloses : fence.Encloses layout'.blocks layout'.edges) (joinEq : fence.join = layout.size) :
    Fenced (commands ++ [fence.command]) layout layout' [(fence.join, access)]
      (fences ++ [fence]) := by
  refine ⟨by simp [fenced.commands_eq], ?_, ?_, ?_, ?_⟩
  · intro other isFence
    rcases List.mem_append.1 isFence with isInner | isOuter
    · exact fenced.encloses other isInner
    · rwa [List.mem_singleton.1 isOuter]
  · intro other isFence
    rcases List.mem_append.1 isFence with isInner | isOuter
    · exact Nat.le_trans (Nat.le_of_lt larger) (fenced.size_le other isInner)
    · have same : other.join = layout.size := by rw [List.mem_singleton.1 isOuter, joinEq]
      exact Nat.le_of_eq same.symm
  · intro other isFence
    rcases List.mem_append.1 isFence with isInner | isOuter
    · exact fenced.aside other isInner
    · intro entry isResult covers
      rw [List.mem_singleton.1 isResult, List.mem_singleton.1 isOuter] at covers
      exact absurd covers.1 (Nat.lt_irrefl _)
  · rw [List.map_append]
    refine List.nodup_append.2 ⟨fenced.distinct, by simp, ?_⟩
    rintro join isInner join' isOuter rfl
    rcases List.mem_map.1 isInner with ⟨other, isOther, same⟩
    have := fenced.size_le other isOther
    simp at isOuter
    lia

theorem Fenced.append {commands commands' : List Command} {between : List (BlockId × Access)}
    {fences fences' : List Fence} (knows : layout.Knows known)
    (first : Moves around known layout middle between)
    (fenced : Fenced commands layout middle between fences)
    (second : Moves around (between ++ known) middle layout' results)
    (fenced' : Fenced commands' middle layout' results fences') :
    Fenced (commands ++ commands') layout layout' results (fences ++ fences') := by
  have small : ∀ fence ∈ fences, fence.stop ≤ middle.size :=
    fun fence isFence => (fenced.encloses fence isFence).stop_le
  have notKnown : ∀ fence ∈ fences, ∀ entry ∈ between ++ known, ¬ fence.Covers entry.1 := by
    intro fence isFence entry isKnown covers
    rcases List.mem_append.1 isKnown with isResult | old
    · exact fenced.aside fence isFence entry isResult covers
    · have := knows.lt entry old
      have := fenced.size_le fence isFence
      have := covers.1
      lia
  refine ⟨?_, ?_, ?_, ?_, ?_⟩
  · rw [List.map_append, fenced.commands_eq, fenced'.commands_eq]
  · intro fence isFence
    rcases List.mem_append.1 isFence with isFirst | isSecond
    · exact encloses_of_moves second (fenced.encloses fence isFirst) (notKnown fence isFirst)
    · exact fenced'.encloses fence isSecond
  · intro fence isFence
    rcases List.mem_append.1 isFence with isFirst | isSecond
    · exact fenced.size_le fence isFirst
    · exact Nat.le_trans first.size_le (fenced'.size_le fence isSecond)
  · intro fence isFence entry isResult covers
    rcases List.mem_append.1 isFence with isFirst | isSecond
    · rcases second.origin entry isResult with isKnown | large
      · exact notKnown fence isFirst entry isKnown covers
      · have := small fence isFirst
        have := covers.2
        lia
    · exact fenced'.aside fence isSecond entry isResult covers
  · rw [List.map_append]
    refine List.nodup_append.2 ⟨fenced.distinct, fenced'.distinct, ?_⟩
    rintro join isFirst join' isSecond rfl
    rcases List.mem_map.1 isFirst with ⟨fence, isFence, rfl⟩
    rcases List.mem_map.1 isSecond with ⟨fence', isFence', same⟩
    have := (fenced.encloses fence isFence).join_lt
    have := (fenced.encloses fence isFence).last_lt
    have := small fence isFence
    have := fenced'.size_le fence' isFence'
    lia

namespace Follows

variable {α β : Type} {commands commands' : List Command}

theorem of_moves {step : StateM Layout α} {results : α → List (BlockId × Access)}
    (moves : ∀ ⦃layout layout' : Layout⦄ ⦃value : α⦄, layout.Knows known →
      around.Fits layout.blocks layout.size → layout.InRange →
        step.run layout = (value, layout') → Moves around known layout layout' (results value)) :
    Follows around known step [] results :=
  fun _ _ _ knows fits inRange run => ⟨moves knows fits inRange run, [], .nil _ _ _⟩

theorem pure {value : α} {results : α → List (BlockId × Access)} (fewer : results value ⊆ known) :
    Follows around known (pure value) [] results := by
  apply of_moves
  intro layout layout' result knows fits inRange run
  rcases of_run_pure run with ⟨rfl, rfl⟩
  exact .refl inRange knows fewer

theorem bind {first : StateM Layout α} {rest : α → StateM Layout β}
    {between : α → List (BlockId × Access)} {results : β → List (BlockId × Access)}
    (firstFollows : Follows around known first commands between)
    (restFollows : ∀ value,
      Follows around (between value ++ known) (rest value) commands' results) :
    Follows around known (first >>= rest) (commands ++ commands') results := by
  intro layout layout' result knows fits inRange run
  rcases exists_of_run_bind run with ⟨value, middle, firstRun, restRun⟩
  rcases firstFollows knows fits inRange firstRun with ⟨moves, fences, fenced⟩
  have knows' := moves.knows.append (moves.knows_of_knows knows)
  rcases restFollows value knows' (moves.fits fits) moves.inRange restRun with
    ⟨moves', fences', fenced'⟩
  exact ⟨moves.trans moves', fences ++ fences', .append knows moves fenced moves' fenced'⟩

theorem mono {step : StateM Layout α} {results : α → List (BlockId × Access)}
    (follows : Follows around known step commands results) (more : known ⊆ known') :
    Follows around known' step commands results := by
  intro layout layout' value knows fits inRange run
  rcases follows (knows.mono more) fits inRange run with ⟨moves, fenced⟩
  exact ⟨moves.mono more, fenced⟩

theorem weaken {step : StateM Layout α} {results results' : α → List (BlockId × Access)}
    (follows : Follows around known step commands results)
    (fewer : ∀ value, results' value ⊆ results value) :
    Follows around known step commands results' := by
  intro layout layout' value knows fits inRange run
  rcases follows knows fits inRange run with ⟨moves, fences, fenced⟩
  refine ⟨moves.weaken (fewer value), fences, { fenced with aside := ?_ }⟩
  exact fun fence isFence entry isResult => fenced.aside fence isFence entry (fewer value isResult)

theorem of_eq {step : StateM Layout α} {results : α → List (BlockId × Access)}
    (follows : Follows around known step commands results) (same : commands = commands') :
    Follows around known step commands' results :=
  same ▸ follows

theorem of_insideLoop {kind : LoopKind} {head exit : BlockId} {bound : List Node}
    {step : StateM Layout α} {results : α → List (BlockId × Access)}
    (follows : Follows (around.insideLoop ⟨head, exit⟩ bound) known step commands results)
    (isHead : (head, Access.enter kind.headRole) ∈ known)
    (isExit : (exit, Access.enter kind.joinRole) ∈ known) :
    Follows around known step commands results := by
  intro layout layout' value knows fits inRange run
  rcases follows knows (fits_insideLoop fits knows isHead isExit) inRange run with ⟨moves, fenced⟩
  exact ⟨moves.of_insideLoop isHead isExit, fenced⟩

theorem of_guardedBy {dispatch? : Option BlockId} {step : StateM Layout α}
    {results : α → List (BlockId × Access)}
    (follows : Follows (around.guardedBy (dispatch?.getD around.handler)) known step commands
      results)
    (isDispatch : ∀ dispatch ∈ dispatch?, (dispatch, Access.enter .handlers) ∈ known) :
    Follows around known step commands results := by
  cases dispatch? with
  | none => exact follows
  | some dispatch =>
      intro layout layout' value knows fits inRange run
      have inside := fits_guardedBy fits knows (isDispatch dispatch rfl)
      rcases follows knows inside inRange run with ⟨moves, fenced⟩
      exact ⟨moves.of_guardedBy (isDispatch dispatch rfl), fenced⟩

theorem newBlock (around' : Surroundings) (role : BlockRole) (nodes : List Node) :
    Follows around known (newBlock around' role nodes) []
      fun id => [(id, .write), (id, .enter role)] := by
  apply of_moves
  intro layout layout' id knows fits inRange run
  exact .of_newBlock inRange run

theorem link {source target : BlockId} {role : BlockRole} (isSource : source ∈ known.map Prod.fst)
    (isTarget : (target, Access.enter role) ∈ known) :
    Follows around known (link source target) [] fun _ => [] := by
  apply of_moves
  intro layout layout' result knows fits inRange run
  exact .of_link inRange knows isSource (knows.lt _ isTarget) (.inl ⟨role, isTarget⟩) run

theorem append {id : BlockId} (isKnown : (id, Access.write) ∈ known) (statement : Node) :
    Follows around known (append id statement) [] fun _ => [] := by
  apply of_moves
  intro layout layout' result knows fits inRange run
  exact .of_append inRange isKnown run

theorem jump {id : BlockId} (isKnown : (id, Access.write) ∈ known) {jump : Jump} {statement : Node}
    (isJump : statement.jump? = some jump) :
    Follows around known
      (Layout.append id statement >>= fun _ => linkTo? id (around.target? jump)) []
      fun _ => [] := by
  apply of_moves
  intro layout layout' result knows fits inRange run
  rcases exists_of_run_bind run with ⟨_, appended, appendRun, linkRun⟩
  have appending : Moves around known layout appended [] := .of_append inRange isKnown appendRun
  cases goes : around.target? jump with
  | none =>
      rw [goes] at linkRun
      rcases of_run_pure linkRun with ⟨-, rfl⟩
      exact appending
  | some target =>
      rw [goes] at linkRun
      have placed : statement ∈ appended.statements id := by
        rw [(of_run_append appendRun).2.2.2 (knows.lt _ isKnown)]
        exact List.mem_append_right _ (List.mem_singleton_self _)
      have sends : around.SendsTo (appended.statements id) target :=
        ⟨statement, placed, jump, isJump, goes⟩
      have targetLt : target < appended.size :=
        Nat.lt_of_lt_of_le (fits jump target goes).1 appending.size_le
      apply appending.trans
      exact .of_link appending.inRange (appending.knows_of_knows knows)
        (List.mem_map_of_mem isKnown) targetLt (.inr sends) linkRun

theorem linkAll {sources : List BlockId} {target : BlockId} {role : BlockRole}
    (areSources : ∀ source ∈ sources, source ∈ known.map Prod.fst)
    (isTarget : (target, Access.enter role) ∈ known) :
    Follows around known (linkAll sources target) [] fun _ => [] := by
  induction sources with
  | nil => exact .pure (List.nil_subset _)
  | cons source sources ih =>
      rw [linkAll_cons]
      apply of_eq
      · apply bind (link (areSources source List.mem_cons_self) isTarget)
        intro _
        exact ih fun other isOther => areSources other (List.mem_cons_of_mem _ isOther)
      · rfl

theorem linkTo? {source : BlockId} {target? : Option BlockId} {role : BlockRole}
    (isSource : source ∈ known.map Prod.fst)
    (isTarget : ∀ target ∈ target?, (target, Access.enter role) ∈ known) :
    Follows around known (linkTo? source target?) [] fun _ => [] := by
  cases target? with
  | none => exact .pure (List.nil_subset _)
  | some target => exact link isSource (isTarget target rfl)

section Bodies

variable {role role' : BlockRole} {lay : BlockId → StateM Layout BlockId} {around' : Surroundings}

theorem layBody {sources : List BlockId}
    (areSources : ∀ source ∈ sources, source ∈ known.map Prod.fst)
    (layFollows : ∀ entry, Follows around ((entry, .write) :: known) (lay entry) commands
      fun exit => [(exit, .write)]) :
    Follows around known (layBody around' role sources lay) commands
      fun exit => [(exit, .write)] := by
  apply of_eq
  · apply bind (newBlock around' role [])
    intro entry
    apply bind ((layFollows entry).mono (by simp))
    intro exit
    have isEntry : (entry, Access.enter role) ∈ [(exit, Access.write)] ++
        ([(entry, .write), (entry, .enter role)] ++ known) := by simp
    apply bind (linkAll _ isEntry)
    · intro _
      exact pure (by simp)
    · intro source isSource
      exact mem_blocks_append (mem_blocks_append (areSources source isSource))
  · simp

theorem layBetween {sources : List BlockId} {body : List Command} {target : BlockId}
    (areSources : ∀ source ∈ sources, source ∈ known.map Prod.fst)
    (isTarget : (target, Access.enter role') ∈ known)
    (layFollows : ∀ entry, Follows around ((entry, .write) :: known) (lay entry)
      (Command.closingsOfAll body) fun exit => [(exit, .write)]) :
    Follows around known (layBetween around' role sources body lay target)
      (Command.closingsOfAll body) fun _ => [] := by
  cases body with
  | nil => exact linkAll areSources isTarget
  | cons command rest =>
      rw [← List.append_nil (Command.closingsOfAll _)]
      apply bind (layBody areSources layFollows)
      intro exit
      exact link (by simp) (List.mem_append_right _ isTarget)

theorem layOptional {source : BlockId} {body : List Command}
    (isSource : (source, Access.write) ∈ known)
    (layFollows : ∀ entry, Follows around ((entry, .write) :: known) (lay entry)
      (Command.closingsOfAll body) fun exit => [(exit, .write)]) :
    Follows around known (layOptional around' role source body lay)
      (Command.closingsOfAll body) fun exit => [(exit, .write)] := by
  cases body with
  | nil => exact pure (by simpa using isSource)
  | cons command rest =>
      apply layBody _ layFollows
      intro other isOther
      rw [List.mem_singleton.1 isOther]
      exact List.mem_map_of_mem isSource

theorem newDispatch? (handlers : List (List Command)) :
    Follows around known (newDispatch? around' handlers) []
      fun dispatch? => dispatch?.toList.map (·, .enter .handlers) := by
  rw [Layout.newDispatch?]
  split
  · exact pure (List.nil_subset _)
  · rw [map_eq_pure_bind]
    apply of_eq
    · apply bind (newBlock around' .handlers [])
      intro dispatch
      exact pure (by simp)
    · rfl

end Bodies

end Follows

end Layout

end FlowAnalysis
