import FlowAnalysis.Proofs.ControlFlow.Laying
import Mathlib.Data.List.Nodup

/-!
# What every step of the construction keeps

A graph is drawn with three operations: a new block, an edge, and a further statement of a block.
What holds of a layout and is kept by each of them is kept by the layout of commands, whatever the
commands are. In this way no edge is ever drawn twice.
-/

namespace FlowAnalysis

namespace Layout

variable {holds : Layout → Prop}

/-- A step keeps what holds of a layout. -/
def Keeps (holds : Layout → Prop) {α : Type} (step : StateM Layout α) : Prop :=
  ∀ layout, holds layout → holds (step.run layout).2

/-- What the operations that draw a graph keep. -/
structure Kept (holds : Layout → Prop) : Prop where
  newBlock : ∀ around role nodes, Keeps holds (newBlock around role nodes)
  link : ∀ source target, Keeps holds (link source target)
  append : ∀ id statement, Keeps holds (append id statement)

namespace Keeps

variable {α β : Type}

theorem pure (value : α) : Keeps holds (pure value : StateM Layout α) :=
  fun _ held => held

theorem bind {first : StateM Layout α} {rest : α → StateM Layout β}
    (firstKeeps : Keeps holds first) (restKeeps : ∀ value, Keeps holds (rest value)) :
    Keeps holds (first >>= rest) := by
  intro layout held
  exact restKeeps _ _ (firstKeeps layout held)

end Keeps

namespace Kept

variable (kept : Kept holds) {around : Surroundings} {role : BlockRole}
  {lay : BlockId → StateM Layout BlockId}

include kept

theorem linkAll (sources : List BlockId) (target : BlockId) :
    Keeps holds (linkAll sources target) := by
  induction sources with
  | nil => exact .pure ()
  | cons source sources ih =>
      rw [linkAll_cons]
      exact .bind (kept.link source target) fun _ => ih

theorem linkTo? (source : BlockId) (target? : Option BlockId) :
    Keeps holds (linkTo? source target?) := by
  cases target? with
  | none => exact .pure ()
  | some target => exact kept.link source target

theorem layBody (sources : List BlockId) (layKeeps : ∀ id, Keeps holds (lay id)) :
    Keeps holds (layBody around role sources lay) := by
  refine .bind (kept.newBlock around role []) fun entry => ?_
  refine .bind (layKeeps entry) fun exit => ?_
  exact .bind (kept.linkAll sources entry) fun _ => .pure exit

theorem layBetween (sources : List BlockId) (body : List Command) (target : BlockId)
    (layKeeps : ∀ id, Keeps holds (lay id)) :
    Keeps holds (layBetween around role sources body lay target) := by
  rw [Layout.layBetween]
  split
  · exact kept.linkAll sources target
  · exact .bind (kept.layBody sources layKeeps) fun exit => kept.link exit target

theorem layOptional (source : BlockId) (body : List Command)
    (layKeeps : ∀ id, Keeps holds (lay id)) :
    Keeps holds (layOptional around role source body lay) := by
  rw [Layout.layOptional]
  split
  · exact .pure source
  · exact kept.layBody [source] layKeeps

theorem newDispatch? (handlers : List (List Command)) :
    Keeps holds (newDispatch? around handlers) := by
  rw [Layout.newDispatch?]
  split
  · exact .pure none
  · rw [map_eq_pure_bind]
    exact .bind (kept.newBlock around .handlers []) fun dispatch => .pure (some dispatch)

omit kept

mutual

theorem layCommand (kept : Kept holds) (around : Surroundings) : (command : Command) →
    (last : BlockId) → Keeps holds (layCommand around command last)
  | .place statement, last => by
      rw [Layout.layCommand]
      exact .bind (kept.append last statement) fun _ => .pure last
  | .jump target statement, last => by
      rw [Layout.layCommand]
      refine .bind (kept.append last statement) fun _ => ?_
      exact .bind (kept.linkTo? last _) fun _ => kept.newBlock around .unreachable []
  | .branch cond body rest, last => by
      rw [Layout.layCommand]
      refine .bind (kept.newBlock around .ifCond [cond]) fun condBlock => ?_
      refine .bind (kept.link last condBlock) fun _ => ?_
      refine .bind (kept.layBody [condBlock] (layCommands kept around body)) fun bodyExit => ?_
      refine .bind (kept.newBlock around .conditionalJoin []) fun join => ?_
      refine .bind (kept.link bodyExit join) fun _ => ?_
      exact .bind (layAlternatives kept around rest condBlock join) fun _ => .pure join
  | .loop kind head bound body orelse, last => by
      rw [Layout.layCommand]
      refine .bind (kept.newBlock around kind.headRole [head]) fun headBlock => ?_
      refine .bind (kept.link last headBlock) fun _ => ?_
      refine .bind (kept.newBlock around kind.joinRole []) fun join => ?_
      refine .bind (kept.layBody [headBlock] (layCommands kept _ body)) fun bodyExit => ?_
      refine .bind (kept.link bodyExit headBlock) fun _ => ?_
      exact .bind (kept.layBetween [headBlock] orelse join (layCommands kept around orelse))
        fun _ => .pure join
  | .bracket bindings body, last => by
      rw [Layout.layCommand]
      refine .bind (kept.newBlock around .withBindings bindings) fun bindingBlock => ?_
      refine .bind (kept.link last bindingBlock) fun _ => ?_
      exact kept.layBody [bindingBlock] (layCommands kept around body)
  | .guarded body handlers orelse finalbody, last => by
      rw [Layout.layCommand]
      refine .bind (kept.newBlock around .tryJoin []) fun join => ?_
      refine .bind (kept.newDispatch? handlers) fun dispatch? => ?_
      refine .bind (layHandlers kept around dispatch?.toList handlers) fun handlerExits => ?_
      refine .bind (kept.layBody [last] (layCommands kept _ body)) fun bodyExit => ?_
      refine .bind (kept.linkTo? bodyExit dispatch?) fun _ => ?_
      refine .bind (kept.layOptional bodyExit orelse (layCommands kept around orelse))
        fun normalExit => ?_
      exact .bind (kept.layBetween _ finalbody join (layCommands kept around finalbody))
        fun _ => .pure join

theorem layCommands (kept : Kept holds) (around : Surroundings) : (commands : List Command) →
    (last : BlockId) → Keeps holds (layCommands around commands last)
  | [], last => by
      rw [Layout.layCommands]
      exact .pure last
  | command :: rest, last => by
      rw [Layout.layCommands]
      exact .bind (layCommand kept around command last) (layCommands kept around rest)

theorem layAlternatives (kept : Kept holds) (around : Surroundings) : (rest : Alternatives) →
    (condBlock join : BlockId) → Keeps holds (layAlternatives around rest condBlock join)
  | .none, condBlock, join => by
      rw [Layout.layAlternatives]
      exact kept.link condBlock join
  | .further cond body rest, condBlock, join => by
      rw [Layout.layAlternatives]
      refine .bind (kept.newBlock around .elifCond [cond]) fun furtherBlock => ?_
      refine .bind (kept.link condBlock furtherBlock) fun _ => ?_
      refine .bind (kept.layBody [furtherBlock] (layCommands kept around body)) fun bodyExit => ?_
      refine .bind (kept.link bodyExit join) fun _ => ?_
      exact layAlternatives kept around rest furtherBlock join
  | .otherwise header body, condBlock, join => by
      rw [Layout.layAlternatives]
      refine .bind (kept.newBlock around .elseCond [header]) fun headerBlock => ?_
      refine .bind (kept.link condBlock headerBlock) fun _ => ?_
      refine .bind (kept.layBody [headerBlock] (layCommands kept around body)) fun bodyExit => ?_
      exact kept.link bodyExit join

theorem layHandlers (kept : Kept holds) (around : Surroundings) (dispatches : List BlockId) :
    (handlers : List (List Command)) → Keeps holds (layHandlers around dispatches handlers)
  | [] => by
      rw [Layout.layHandlers]
      exact .pure []
  | handler :: rest => by
      rw [Layout.layHandlers]
      refine .bind (kept.layBody dispatches (layCommands kept around handler)) fun handlerExit => ?_
      exact .bind (layHandlers kept around dispatches rest) fun exits => .pure _

end

include kept

/-- What the empty layout has is found in the layout of every program. -/
theorem layProgram (empty : holds {}) (program : List Command) :
    holds ((layProgram program).run {}).2 := by
  have keeps : Keeps holds (Layout.layProgram program) := by
    refine .bind (kept.newBlock _ .exceptionalExit []) fun exceptionalExit => ?_
    refine .bind (kept.newBlock _ .entry []) fun entry => ?_
    exact .bind (kept.layCommands _ program entry) fun _ => .pure _
  exact keeps {} empty

end Kept

/-- An edge is drawn only if it is not there. -/
theorem kept_nodup_edges : Kept fun layout => layout.edges.Nodup where
  newBlock _ _ _ _ distinct := distinct
  link source target layout distinct := by
    change (if (source, target) ∈ layout.edges then layout
      else { layout with edges := layout.edges ++ [(source, target)] }).edges.Nodup
    split
    · exact distinct
    · next notDrawn =>
        refine List.nodup_append.2 ⟨distinct, List.nodup_singleton _, ?_⟩
        rintro edge edgeMem other otherMem rfl
        exact notDrawn (List.mem_singleton.1 otherMem ▸ edgeMem)
  append _ _ _ distinct := distinct

end Layout

namespace Graph

variable {graph : Graph}

theorem nodup_edges_ofCommands (program : List Command) : (ofCommands program).edges.Nodup :=
  Layout.kept_nodup_edges.layProgram List.nodup_nil program

theorem nodup_edges {root : Node} (built : ofRoot root = .ok graph) : graph.edges.Nodup := by
  rcases ofRoot_eq_ok built with ⟨statements, rfl, -⟩
  exact nodup_edges_ofCommands _

/-- No block is listed twice as a successor. -/
theorem nodup_successors (distinct : graph.edges.Nodup) (id : BlockId) :
    (graph.successors id).Nodup := by
  rw [successors]
  refine List.Nodup.map_on ?_ (distinct.filter _)
  intro edge edgeMem other otherMem sameTarget
  have edgeSource := beq_iff_eq.1 (List.mem_filter.1 edgeMem).2
  have otherSource := beq_iff_eq.1 (List.mem_filter.1 otherMem).2
  exact Prod.ext (edgeSource.trans otherSource.symm) sameTarget

end Graph

end FlowAnalysis
