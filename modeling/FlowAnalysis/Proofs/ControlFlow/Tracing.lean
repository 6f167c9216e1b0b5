import FlowAnalysis.Proofs.ControlFlow.Laying
import Mathlib.Logic.Relation

/-!
# The construction of a graph as a sequence of steps

A graph is drawn block after block, edge after edge and statement after statement. Whatever is laid
out, an edge is drawn between blocks that are there when it is drawn, and a statement is appended to
a block that is there (`Layout.Step`). Blocks are never taken away, so what is known of the blocks
that a part is given holds behind it, and the number of blocks tells all that has to be known.
-/

namespace FlowAnalysis

namespace Surroundings

/-- Jumps go to blocks below a number. -/
def Below (around : Surroundings) (size : Nat) : Prop :=
  ∀ id, around.IsTarget id → id < size

namespace Below

variable {around : Surroundings} {size size' : Nat}

theorem mono (below : around.Below size) (le : size ≤ size') : around.Below size' :=
  fun id isTarget => Nat.lt_of_lt_of_le (below id isTarget) le

theorem insideLoop {targets : LoopTargets} {bound : List Node} (below : around.Below size)
    (headLt : targets.head < size) (exitLt : targets.exit < size) :
    (around.insideLoop targets bound).Below size := by
  intro id isTarget
  rcases Layout.of_isTarget_insideLoop isTarget with isHead | isExit | outer
  · lia
  · lia
  · exact below id outer

theorem guardedBy {dispatch? : Option BlockId} (below : around.Below size)
    (dispatchLt : ∀ dispatch ∈ dispatch?, dispatch < size) :
    (around.guardedBy (dispatch?.getD around.handler)).Below size := by
  intro id isTarget
  rcases Layout.of_isTarget_guardedBy isTarget with isDispatch | outer
  · exact dispatchLt id isDispatch
  · exact below id outer

end Below

end Surroundings

namespace Layout

/-- A step of the construction, on blocks that are there. -/
inductive Step : Layout → Layout → Prop where
  | newBlock {layout : Layout} (around : Surroundings) (role : BlockRole) (nodes : List Node) :
      Step layout ((newBlock around role nodes).run layout).2
  | link {layout : Layout} {source target : BlockId} (source_lt : source < layout.size)
      (target_lt : target < layout.size) : Step layout ((link source target).run layout).2
  | append {layout : Layout} {id : BlockId} (id_lt : id < layout.size) (statement : Node) :
      Step layout ((append id statement).run layout).2

/-- A part of the construction that is given blocks below a number goes on step by step, and
something holds of its result and of the number of blocks behind it. -/
def Traces {α : Type} (size : Nat) (part : StateM Layout α) (result : α → Nat → Prop) : Prop :=
  ∀ layout : Layout, size ≤ layout.size →
    Relation.ReflTransGen Step layout (part.run layout).2 ∧
      result (part.run layout).1 (part.run layout).2.size

variable {layout layout' : Layout} {size size' : Nat} {around : Surroundings} {role : BlockRole}

theorem size_newBlock (around : Surroundings) (role : BlockRole) (nodes : List Node) :
    ((newBlock around role nodes).run layout).2.size = layout.size + 1 :=
  List.length_append

theorem size_link (source target : BlockId) :
    ((link source target).run layout).2.size = layout.size := by
  have run : (link source target).run layout = ((), ((link source target).run layout).2) := rfl
  exact congrArg List.length (of_run_link run).1

theorem size_append (id : BlockId) (statement : Node) :
    ((append id statement).run layout).2.size = layout.size :=
  List.length_modify ..

theorem Step.size_le (step : Step layout layout') : layout.size ≤ layout'.size := by
  cases step with
  | newBlock around role nodes => simp [size_newBlock]
  | link => simp [size_link]
  | append => simp [size_append]

theorem size_le_of_reflTransGen (steps : Relation.ReflTransGen Step layout layout') :
    layout.size ≤ layout'.size := by
  induction steps with
  | refl => exact Nat.le_refl _
  | tail _ step ih => exact Nat.le_trans ih step.size_le

namespace Traces

variable {α β : Type} {result : α → Nat → Prop}

theorem pure {value : α} (holds : ∀ size', size ≤ size' → result value size') :
    Traces size (pure value : StateM Layout α) result :=
  fun layout le => ⟨.refl, holds layout.size le⟩

/-- What comes second may count on the blocks of the first part and on its result. -/
theorem bind {first : StateM Layout α} {rest : α → StateM Layout β} {between : α → Nat → Prop}
    {result : β → Nat → Prop} (firstTraces : Traces size first between)
    (restTraces : ∀ value size', size ≤ size' → between value size' →
      Traces size' (rest value) result) : Traces size (first >>= rest) result := by
  intro layout le
  rcases firstTraces layout le with ⟨steps, holds⟩
  have larger := size_le_of_reflTransGen steps
  rcases restTraces _ _ (Nat.le_trans le larger) holds _ (Nat.le_refl _) with ⟨later, holds'⟩
  exact ⟨steps.trans later, holds'⟩

theorem newBlock (around : Surroundings) (role : BlockRole) (nodes : List Node) :
    Traces size (newBlock around role nodes) fun id size' => id < size' := by
  intro layout _
  refine ⟨.single (.newBlock around role nodes), ?_⟩
  rw [size_newBlock]
  exact Nat.lt_succ_self _

theorem link {source target : BlockId} (sourceLt : source < size) (targetLt : target < size) :
    Traces size (link source target) fun _ _ => True := by
  intro layout le
  exact ⟨.single (.link (by lia) (by lia)), trivial⟩

theorem append {id : BlockId} (idLt : id < size) (statement : Node) :
    Traces size (append id statement) fun _ _ => True := by
  intro layout le
  exact ⟨.single (.append (by lia) statement), trivial⟩

theorem linkAll {sources : List BlockId} {target : BlockId}
    (sourcesLt : ∀ source ∈ sources, source < size) (targetLt : target < size) :
    Traces size (linkAll sources target) fun _ _ => True := by
  induction sources generalizing size with
  | nil => exact .pure fun _ _ => trivial
  | cons source sources ih =>
      rw [linkAll_cons]
      rcases List.forall_mem_cons.1 sourcesLt with ⟨sourceLt, othersLt⟩
      refine .bind (link sourceLt targetLt) fun _ size' le _ => ?_
      exact ih (fun other isOther => Nat.lt_of_lt_of_le (othersLt other isOther) le) (by lia)

theorem linkTo? {source : BlockId} {target? : Option BlockId} (sourceLt : source < size)
    (targetLt : ∀ target ∈ target?, target < size) :
    Traces size (linkTo? source target?) fun _ _ => True := by
  cases target? with
  | none => exact .pure fun _ _ => trivial
  | some target => exact link sourceLt (targetLt target rfl)

section Bodies

variable {lay : BlockId → StateM Layout BlockId} {source target : BlockId}
  {sources : List BlockId} {body : List Command}

theorem layBody (sourcesLt : ∀ source ∈ sources, source < size)
    (layTraces : ∀ size' entry, size ≤ size' → entry < size' →
      Traces size' (lay entry) fun exit size' => exit < size') :
    Traces size (layBody around role sources lay) fun exit size' => exit < size' := by
  refine .bind (newBlock around role []) fun entry size₁ le₁ entryLt => ?_
  refine .bind (layTraces size₁ entry le₁ entryLt) fun exit size₂ le₂ exitLt => ?_
  refine .bind (linkAll (fun source isSource => ?_) (by lia)) fun _ size₃ le₃ _ => ?_
  · have := sourcesLt source isSource
    lia
  · exact .pure fun _ le => by lia

theorem layBetween (sourcesLt : ∀ source ∈ sources, source < size) (targetLt : target < size)
    (layTraces : ∀ size' entry, size ≤ size' → entry < size' →
      Traces size' (lay entry) fun exit size' => exit < size') :
    Traces size (layBetween around role sources body lay target) fun _ _ => True := by
  rw [Layout.layBetween]
  split
  · exact linkAll sourcesLt targetLt
  · refine .bind (layBody sourcesLt layTraces) fun exit size₁ le₁ exitLt => ?_
    exact link exitLt (by lia)

theorem layOptional (sourceLt : source < size)
    (layTraces : ∀ size' entry, size ≤ size' → entry < size' →
      Traces size' (lay entry) fun exit size' => exit < size') :
    Traces size (layOptional around role source body lay) fun exit size' => exit < size' := by
  rw [Layout.layOptional]
  split
  · exact .pure fun _ le => by lia
  · exact layBody (by simpa using sourceLt) layTraces

theorem newDispatch? (handlers : List (List Command)) :
    Traces size (newDispatch? around handlers)
      fun dispatch? size' => ∀ dispatch ∈ dispatch?, dispatch < size' := by
  rw [Layout.newDispatch?]
  split
  · exact .pure fun _ _ => by simp
  · rw [map_eq_pure_bind]
    refine .bind (newBlock around .handlers []) fun dispatch size₁ _ dispatchLt => ?_
    refine .pure fun size₂ le found isDispatch => ?_
    rcases isDispatch with ⟨⟩
    lia

end Bodies

mutual

/-- A command is given the block behind which it is laid out, and the blocks to which jumps go. -/
theorem layCommand (around : Surroundings) : (command : Command) → {size : Nat} →
    {last : BlockId} → around.Below size → last < size →
      Traces size (layCommand around command last) fun next size' => next < size'
  | .place statement, size, last, _, lastLt => by
      rw [Layout.layCommand]
      refine .bind (append lastLt statement) fun _ size₁ le₁ _ => ?_
      exact .pure fun _ le => by lia
  | .jump target statement, size, last, below, lastLt => by
      rw [Layout.layCommand]
      refine .bind (append lastLt statement) fun _ size₁ le₁ _ => ?_
      refine .bind (linkTo? (by lia) fun id goes => ?_) fun _ size₂ _ _ => ?_
      · exact below.mono le₁ id ⟨target, goes⟩
      · exact newBlock around .unreachable []
  | .branch cond body rest, size, last, below, lastLt => by
      rw [Layout.layCommand]
      refine .bind (newBlock around .ifCond [cond]) fun condBlock size₁ le₁ condLt => ?_
      refine .bind (link (by lia) condLt) fun _ size₂ le₂ _ => ?_
      refine .bind (layBody (by simp; lia) fun size' entry le entryLt =>
        layCommands around body (below.mono (by lia)) entryLt) fun bodyExit size₃ le₃ exitLt => ?_
      refine .bind (newBlock around .conditionalJoin []) fun join size₄ le₄ joinLt => ?_
      refine .bind (link (by lia) joinLt) fun _ size₅ le₅ _ => ?_
      refine .bind (layAlternatives around rest (below.mono (by lia)) (by lia) (by lia))
        fun _ size₆ le₆ _ => ?_
      exact .pure fun _ le => by lia
  | .loop kind head bound body orelse, size, last, below, lastLt => by
      rw [Layout.layCommand]
      refine .bind (newBlock around kind.headRole [head]) fun headBlock size₁ le₁ headLt => ?_
      refine .bind (link (by lia) headLt) fun _ size₂ le₂ _ => ?_
      refine .bind (newBlock around kind.joinRole []) fun join size₃ le₃ joinLt => ?_
      have inside : (around.insideLoop ⟨headBlock, join⟩ bound).Below size₃ :=
        (below.mono (by lia)).insideLoop (Nat.lt_of_lt_of_le headLt (by lia)) joinLt
      refine .bind (layBody (by simp; lia) fun size' entry le entryLt =>
        layCommands _ body (inside.mono le) entryLt) fun bodyExit size₄ le₄ exitLt => ?_
      refine .bind (link exitLt (by lia)) fun _ size₅ le₅ _ => ?_
      refine .bind (layBetween (by simp; lia) (by lia) fun size' entry le entryLt =>
        layCommands around orelse (below.mono (by lia)) entryLt) fun _ size₆ le₆ _ => ?_
      exact .pure fun _ le => by lia
  | .bracket bindings body, size, last, below, lastLt => by
      rw [Layout.layCommand]
      refine .bind (newBlock around .withBindings bindings) fun bindingBlock size₁ le₁ blockLt => ?_
      refine .bind (link (by lia) blockLt) fun _ size₂ le₂ _ => ?_
      exact layBody (by simp; lia) fun size' entry le entryLt =>
        layCommands around body (below.mono (by lia)) entryLt
  | .guarded body handlers orelse finalbody, size, last, below, lastLt => by
      rw [Layout.layCommand]
      refine .bind (newBlock around .tryJoin []) fun join size₁ le₁ joinLt => ?_
      refine .bind (newDispatch? handlers) fun dispatch? size₂ le₂ dispatchLt => ?_
      refine .bind (layHandlers around handlers (below.mono (by lia)) (by simpa using dispatchLt))
        fun handlerExits size₃ le₃ handlersLt => ?_
      have inside : (around.guardedBy (dispatch?.getD around.handler)).Below size₃ :=
        ((below.mono (by lia)).guardedBy dispatchLt).mono le₃
      refine .bind (layBody (by simp; lia) fun size' entry le entryLt =>
        layCommands _ body (inside.mono le) entryLt) fun bodyExit size₄ le₄ exitLt => ?_
      refine .bind (linkTo? exitLt fun dispatch isDispatch => ?_) fun _ size₅ le₅ _ => ?_
      · have := dispatchLt dispatch isDispatch
        lia
      refine .bind (layOptional (by lia) fun size' entry le entryLt =>
        layCommands around orelse (below.mono (by lia)) entryLt)
          fun normalExit size₆ le₆ normalLt => ?_
      have exitsLt : ∀ exit ∈ if finalbody.isEmpty then handlerExits ++ [normalExit]
          else normalExit :: handlerExits, exit < size₆ := by
        intro exit isExit
        have isExit : exit ∈ handlerExits ∨ exit = normalExit := by
          split at isExit <;> simpa [or_comm] using isExit
        rcases isExit with isHandler | rfl
        · have := handlersLt exit isHandler
          lia
        · exact normalLt
      refine .bind (layBetween exitsLt (by lia) fun size' entry le entryLt =>
        layCommands around finalbody (below.mono (by lia)) entryLt) fun _ size₇ le₇ _ => ?_
      exact .pure fun _ le => by lia

theorem layCommands (around : Surroundings) : (commands : List Command) → {size : Nat} →
    {last : BlockId} → around.Below size → last < size →
      Traces size (layCommands around commands last) fun next size' => next < size'
  | [], size, last, _, lastLt => by
      rw [Layout.layCommands]
      exact .pure fun _ le => by lia
  | command :: rest, size, last, below, lastLt => by
      rw [Layout.layCommands]
      refine .bind (layCommand around command below lastLt) fun next size₁ le₁ nextLt => ?_
      exact layCommands around rest (below.mono le₁) nextLt

theorem layAlternatives (around : Surroundings) : (rest : Alternatives) → {size : Nat} →
    {condBlock join : BlockId} → around.Below size → condBlock < size → join < size →
      Traces size (layAlternatives around rest condBlock join) fun _ _ => True
  | .none, size, condBlock, join, _, condLt, joinLt => by
      rw [Layout.layAlternatives]
      exact link condLt joinLt
  | .further cond body rest, size, condBlock, join, below, condLt, joinLt => by
      rw [Layout.layAlternatives]
      refine .bind (newBlock around .elifCond [cond]) fun furtherBlock size₁ le₁ furtherLt => ?_
      refine .bind (link (by lia) furtherLt) fun _ size₂ le₂ _ => ?_
      refine .bind (layBody (by simp; lia) fun size' entry le entryLt =>
        layCommands around body (below.mono (by lia)) entryLt) fun bodyExit size₃ le₃ exitLt => ?_
      refine .bind (link exitLt (by lia)) fun _ size₄ le₄ _ => ?_
      exact layAlternatives around rest (below.mono (by lia)) (by lia) (by lia)
  | .otherwise header body, size, condBlock, join, below, condLt, joinLt => by
      rw [Layout.layAlternatives]
      refine .bind (newBlock around .elseCond [header]) fun headerBlock size₁ le₁ headerLt => ?_
      refine .bind (link (by lia) headerLt) fun _ size₂ le₂ _ => ?_
      refine .bind (layBody (by simp; lia) fun size' entry le entryLt =>
        layCommands around body (below.mono (by lia)) entryLt) fun bodyExit size₃ le₃ exitLt => ?_
      exact link exitLt (by lia)

theorem layHandlers (around : Surroundings) {dispatches : List BlockId} :
    (handlers : List (List Command)) → {size : Nat} → around.Below size →
      (∀ dispatch ∈ dispatches, dispatch < size) →
        Traces size (layHandlers around dispatches handlers)
          fun exits size' => ∀ exit ∈ exits, exit < size'
  | [], size, _, _ => by
      rw [Layout.layHandlers]
      exact .pure fun _ _ => by simp
  | handler :: rest, size, below, dispatchesLt => by
      rw [Layout.layHandlers]
      refine .bind (layBody dispatchesLt fun size' entry le entryLt =>
        layCommands around handler (below.mono le) entryLt) fun handlerExit size₁ le₁ exitLt => ?_
      have dispatchesLt' : ∀ dispatch ∈ dispatches, dispatch < size₁ :=
        fun dispatch isDispatch => Nat.lt_of_lt_of_le (dispatchesLt dispatch isDispatch) le₁
      refine .bind (layHandlers around rest (below.mono le₁) dispatchesLt')
        fun exits size₂ le₂ exitsLt => ?_
      refine .pure fun size₃ le₃ exit isExit => ?_
      rcases List.mem_cons.1 isExit with rfl | later
      · lia
      · exact Nat.lt_of_lt_of_le (exitsLt exit later) le₃

end

/-- A whole program is laid out step by step, beginning with nothing. -/
theorem layProgram (program : List Command) :
    Relation.ReflTransGen Step {} ((layProgram program).run {}).2 := by
  have traces : Traces 0 (Layout.layProgram program) fun _ _ => True := by
    refine .bind (newBlock _ .exceptionalExit []) fun exceptionalExit size₁ _ exitLt => ?_
    refine .bind (newBlock _ .entry []) fun entry size₂ le₂ entryLt => ?_
    have below : (Surroundings.outside exceptionalExit).Below size₂ := by
      intro id isTarget
      have := of_isTarget_outside isTarget
      lia
    refine .bind (layCommands _ program below entryLt) fun _ size₃ _ _ => ?_
    exact .pure fun _ _ => trivial
  exact (traces {} (Nat.zero_le _)).1

end Traces

end Layout

end FlowAnalysis
