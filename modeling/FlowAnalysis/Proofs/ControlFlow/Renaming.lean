import FlowAnalysis.Proofs.ControlFlow.Nesting

/-!
# Programs with other statements

What a graph looks like depends on the statements of a program only in that they stand in its
blocks: the graph of a program with other statements in the places of the old ones has the same
edges. As every program can be got in this way from one whose statements are any given list of the
right length, it may be assumed that no two statements of a program are the same.
-/

namespace FlowAnalysis

namespace Command

mutual

/-- Exchanges the nodes that a command places. -/
def map (f : Node → Node) : Command → Command
  | .place statement => .place (f statement)
  | .jump target statement => .jump target (f statement)
  | .branch cond body rest => .branch (f cond) (mapAll f body) (mapAlternatives f rest)
  | .loop kind head bound body orelse =>
      .loop kind (f head) bound (mapAll f body) (mapAll f orelse)
  | .bracket bindings body => .bracket (bindings.map f) (mapAll f body)
  | .guarded body handlers orelse finalbody =>
      .guarded (mapAll f body) (mapHandlers f handlers) (mapAll f orelse) (mapAll f finalbody)

def mapAll (f : Node → Node) : List Command → List Command
  | [] => []
  | command :: rest => map f command :: mapAll f rest

def mapAlternatives (f : Node → Node) : Alternatives → Alternatives
  | .none => .none
  | .further cond body rest => .further (f cond) (mapAll f body) (mapAlternatives f rest)
  | .otherwise header body => .otherwise (f header) (mapAll f body)

def mapHandlers (f : Node → Node) : List (List Command) → List (List Command)
  | [] => []
  | handler :: rest => mapAll f handler :: mapHandlers f rest

end

variable {f : Node → Node}

@[simp]
theorem isEmpty_mapAll (commands : List Command) :
    (mapAll f commands).isEmpty = commands.isEmpty := by
  cases commands <;> rfl

@[simp]
theorem isEmpty_mapHandlers (handlers : List (List Command)) :
    (mapHandlers f handlers).isEmpty = handlers.isEmpty := by
  cases handlers <;> rfl

mutual

theorem nesting_map : (command : Command) → nesting (map f command) = (nesting command).map f
  | .place statement => rfl
  | .jump _ statement => rfl
  | .branch cond body rest => by
      simp [map, nesting, Forest.map, nestingAll_mapAll body, nestingAlternatives_map rest]
  | .loop _ head _ body orelse => by
      simp [map, nesting, Forest.map, nestingAll_mapAll body, nestingAll_mapAll orelse]
  | .bracket bindings body => by
      simp [map, nesting, nestingAll_mapAll body]
  | .guarded body handlers orelse finalbody => by
      simp [map, nesting, nestingAll_mapAll body, nestingHandlers_map handlers,
        nestingAll_mapAll orelse, nestingAll_mapAll finalbody]

theorem nestingAll_mapAll : (commands : List Command) →
    nestingAll (mapAll f commands) = (nestingAll commands).map f
  | [] => rfl
  | command :: rest => by
      simp [mapAll, nestingAll, nesting_map command, nestingAll_mapAll rest]

theorem nestingAlternatives_map : (rest : Alternatives) →
    nestingAlternatives (mapAlternatives f rest) = (nestingAlternatives rest).map f
  | .none => rfl
  | .further cond body rest => by
      simp [mapAlternatives, nestingAlternatives, Forest.map, nestingAll_mapAll body,
        nestingAlternatives_map rest]
  | .otherwise header body => by
      simp [mapAlternatives, nestingAlternatives, Forest.map, nestingAll_mapAll body]

theorem nestingHandlers_map : (handlers : List (List Command)) →
    nestingHandlers (mapHandlers f handlers) = (nestingHandlers handlers).map f
  | [] => rfl
  | handler :: rest => by
      simp [mapHandlers, nestingHandlers, nestingAll_mapAll handler, nestingHandlers_map rest]

end

mutual

theorem fallsThrough_map : (command : Command) →
    (FallsThrough (map f command) ↔ FallsThrough command)
  | .place statement => Iff.rfl
  | .jump _ statement => Iff.rfl
  | .branch cond body rest => by
      simp [map, FallsThrough, allFallThrough_mapAll body, alternativesFallThrough_map rest]
  | .loop _ head _ body orelse => by
      simp [map, FallsThrough, allFallThrough_mapAll body, allFallThrough_mapAll orelse]
  | .bracket bindings body => by
      simp [map, FallsThrough, allFallThrough_mapAll body]
  | .guarded body handlers orelse finalbody => Iff.rfl

theorem allFallThrough_mapAll : (commands : List Command) →
    (AllFallThrough (mapAll f commands) ↔ AllFallThrough commands)
  | [] => Iff.rfl
  | command :: rest => by
      simp [mapAll, AllFallThrough, fallsThrough_map command, allFallThrough_mapAll rest]

theorem alternativesFallThrough_map : (rest : Alternatives) →
    (AlternativesFallThrough (mapAlternatives f rest) ↔ AlternativesFallThrough rest)
  | .none => Iff.rfl
  | .further cond body rest => by
      simp [mapAlternatives, AlternativesFallThrough, allFallThrough_mapAll body,
        alternativesFallThrough_map rest]
  | .otherwise header body => by
      simp [mapAlternatives, AlternativesFallThrough, allFallThrough_mapAll body]

end

/-- Something with nodes is the image of something that has any given nodes in their places. -/
def Relabels {α : Type} (nodes : α → List Node) (map : (Node → Node) → α → α) (value : α) : Prop :=
  ∀ labels : List Node, labels.length = (nodes value).length →
    ∃ value', nodes value' = labels ∧ ∀ f, labels.map f = nodes value → map f value' = value

namespace Relabels

variable {α β : Type} {nodes : α → List Node} {nodes' : β → List Node}
  {map : (Node → Node) → α → α} {map' : (Node → Node) → β → β} {value : α} {value' : β}

theorem node (label : Node) : Relabels (fun label => [label]) id label := by
  intro labels sameLength
  rcases List.length_eq_one_iff.1 sameLength with ⟨label', rfl⟩
  exact ⟨label', rfl, fun f mapped => by simpa using mapped⟩

theorem list (nodes : List Node) : Relabels id List.map nodes :=
  fun labels _ => ⟨labels, rfl, fun _ mapped => mapped⟩

theorem empty (noNodes : nodes value = []) (fixed : ∀ f, map f value = value) :
    Relabels nodes map value := by
  intro labels sameLength
  rw [noNodes] at sameLength
  rw [List.length_eq_zero_iff.1 sameLength]
  exact ⟨value, noNodes, fun f _ => fixed f⟩

theorem both (first : Relabels nodes map value) (second : Relabels nodes' map' value') :
    Relabels (fun pair => nodes pair.1 ++ nodes' pair.2) (fun f => Prod.map (map f) (map' f))
      (value, value') := by
  intro labels sameLength
  have enough : (labels.take (nodes value).length).length = (nodes value).length := by
    simp only [List.length_append] at sameLength
    simp only [List.length_take]
    omega
  rcases first _ enough with ⟨renamed, renamedNodes, mapped⟩
  have remaining : (labels.drop (nodes value).length).length = (nodes' value').length := by
    simp only [List.length_append] at sameLength
    simp only [List.length_drop]
    omega
  rcases second _ remaining with ⟨renamed', renamedNodes', mapped'⟩
  refine ⟨(renamed, renamed'), by simp [renamedNodes, renamedNodes'], ?_⟩
  intro f labelsMapped
  rw [← List.take_append_drop (nodes value).length labels, List.map_append] at labelsMapped
  rcases List.append_inj labelsMapped (by simpa using enough) with ⟨front, back⟩
  exact Prod.ext (mapped f front) (mapped' f back)

/-- What is built from parts has the nodes of its parts. -/
theorem build (parts : Relabels nodes map value) (build : α → β)
    (sameNodes : ∀ value, nodes' (build value) = nodes value)
    (sameMap : ∀ f value, map' f (build value) = build (map f value)) :
    Relabels nodes' map' (build value) := by
  intro labels sameLength
  rw [sameNodes] at sameLength
  rcases parts labels sameLength with ⟨renamed, renamedNodes, mapped⟩
  refine ⟨build renamed, by rw [sameNodes, renamedNodes], ?_⟩
  intro f labelsMapped
  rw [sameMap, mapped f (by rw [labelsMapped, sameNodes])]

end Relabels

mutual

theorem relabels : (command : Command) →
    Relabels (fun command => (nesting command).labels) map command
  | .place statement =>
      (Relabels.node statement).build Command.place (fun _ => rfl) fun _ _ => rfl
  | .jump target statement =>
      (Relabels.node statement).build (Command.jump target) (fun _ => rfl) fun _ _ => rfl
  | .branch cond body rest => by
      have parts := (Relabels.node cond).both ((relabelsAll body).both (relabelsAlternatives rest))
      refine parts.build (fun parts => Command.branch parts.1 parts.2.1 parts.2.2) ?_ fun _ _ => rfl
      simp [nesting, Forest.labels]
  | .loop kind head bound body orelse => by
      have parts := (Relabels.node head).both ((relabelsAll body).both (relabelsAll orelse))
      refine parts.build (fun parts => Command.loop kind parts.1 bound parts.2.1 parts.2.2) ?_
        fun _ _ => rfl
      simp [nesting, Forest.labels]
  | .bracket bindings body => by
      have parts := (Relabels.list bindings).both (relabelsAll body)
      refine parts.build (fun parts => Command.bracket parts.1 parts.2) ?_ fun _ _ => rfl
      simp [nesting]
  | .guarded body handlers orelse finalbody => by
      have parts := (relabelsAll body).both ((relabelsHandlers handlers).both
        ((relabelsAll orelse).both (relabelsAll finalbody)))
      refine parts.build
        (fun parts => Command.guarded parts.1 parts.2.1 parts.2.2.1 parts.2.2.2) ?_ fun _ _ => rfl
      simp [nesting]

theorem relabelsAll : (commands : List Command) →
    Relabels (fun commands => (nestingAll commands).labels) mapAll commands
  | [] => .empty rfl fun _ => rfl
  | command :: rest => by
      have parts := (relabels command).both (relabelsAll rest)
      refine parts.build (fun parts => parts.1 :: parts.2) ?_ fun _ _ => rfl
      simp [nestingAll]

theorem relabelsAlternatives : (rest : Alternatives) →
    Relabels (fun rest => (nestingAlternatives rest).labels) mapAlternatives rest
  | .none => .empty rfl fun _ => rfl
  | .further cond body rest => by
      have parts := (Relabels.node cond).both ((relabelsAll body).both (relabelsAlternatives rest))
      refine parts.build (fun parts => Alternatives.further parts.1 parts.2.1 parts.2.2) ?_
        fun _ _ => rfl
      simp [nestingAlternatives, Forest.labels]
  | .otherwise header body => by
      have parts := (Relabels.node header).both (relabelsAll body)
      refine parts.build (fun parts => Alternatives.otherwise parts.1 parts.2) ?_ fun _ _ => rfl
      simp [nestingAlternatives, Forest.labels]

theorem relabelsHandlers : (handlers : List (List Command)) →
    Relabels (fun handlers => (nestingHandlers handlers).labels) mapHandlers handlers
  | [] => .empty rfl fun _ => rfl
  | handler :: rest => by
      have parts := (relabelsAll handler).both (relabelsHandlers rest)
      refine parts.build (fun parts => parts.1 :: parts.2) ?_ fun _ _ => rfl
      simp [nestingHandlers]

end

/-- Every program is an image of one that places no node twice. -/
theorem exists_distinct (program : List Command) :
    ∃ distinct f, (nestingAll distinct).labels.Nodup ∧ mapAll f distinct = program := by
  let nodes := (nestingAll program).labels
  let stamp : Nat → Node := fun index => ⟨.pass, { (default : Location) with firstLine := index }⟩
  have stampInjective : Function.Injective stamp := by
    intro index index' same
    simpa [stamp] using same
  rcases relabelsAll program ((List.range nodes.length).map stamp) (by simp [nodes]) with
    ⟨distinct, distinctNodes, mapped⟩
  refine ⟨distinct, fun node => nodes[node.location.firstLine]?.getD node, ?_, mapped _ ?_⟩
  · change (nestingAll distinct).labels = _ at distinctNodes
    rw [distinctNodes]
    exact List.nodup_range.map stampInjective
  · apply List.ext_getElem
    · simp [nodes]
    · intro index _ small
      have small : index < nodes.length := small
      simp [stamp, nodes, small]

end Command

/-! ### The graph of the other statements -/

/-- Exchanges the statements of a block. -/
def Block.map (f : Node → Node) (block : Block) : Block :=
  { block with statements := block.statements.map f }

namespace Layout

/-- Exchanges the statements of all blocks. -/
def map (f : Node → Node) (layout : Layout) : Layout :=
  { layout with blocks := layout.blocks.map (Block.map f) }

/-- A step does with exchanged statements what another step does with the statements as they are. -/
def Mirrors (f : Node → Node) {α : Type} (step mirrored : StateM Layout α) : Prop :=
  ∀ layout, mirrored.run (layout.map f) = ((step.run layout).1, (step.run layout).2.map f)

variable {f : Node → Node}

namespace Mirrors

variable {α β : Type} {around : Surroundings} {role : BlockRole}
  {lay mirroredLay : BlockId → StateM Layout BlockId}

theorem pure (value : α) : Mirrors f (pure value : StateM Layout α) (pure value) :=
  fun _ => rfl

theorem bind {first mirroredFirst : StateM Layout α} {rest mirroredRest : α → StateM Layout β}
    (firstMirrors : Mirrors f first mirroredFirst)
    (restMirrors : ∀ value, Mirrors f (rest value) (mirroredRest value)) :
    Mirrors f (first >>= rest) (mirroredFirst >>= mirroredRest) := by
  intro layout
  rw [StateT.run_bind, firstMirrors layout]
  exact restMirrors _ _

theorem newBlock (around : Surroundings) (role : BlockRole) (nodes : List Node) :
    Mirrors f (newBlock around role nodes) (newBlock around role (nodes.map f)) := by
  intro layout
  refine Prod.ext ?_ ?_
  · change (layout.map f).blocks.length = layout.blocks.length
    simp [Layout.map]
  · change Layout.mk (layout.blocks.map (Block.map f) ++ [Block.mk role (nodes.map f) _])
        layout.edges =
      Layout.mk ((layout.blocks ++ [Block.mk role nodes _]).map (Block.map f)) layout.edges
    simp [Block.map]

theorem link (source target : BlockId) : Mirrors f (link source target) (link source target) := by
  intro layout
  refine Prod.ext rfl ?_
  change (if (source, target) ∈ layout.edges then layout.map f
      else { layout.map f with edges := layout.edges ++ [(source, target)] }) =
    (if (source, target) ∈ layout.edges then layout
      else { layout with edges := layout.edges ++ [(source, target)] }).map f
  split <;> rfl

theorem append (id : BlockId) (statement : Node) :
    Mirrors f (append id statement) (append id (f statement)) := by
  intro layout
  refine Prod.ext rfl ?_
  change Layout.mk ((layout.blocks.map (Block.map f)).modify id _) layout.edges =
    Layout.mk ((layout.blocks.modify id _).map (Block.map f)) layout.edges
  simp only [Layout.mk.injEq, and_true]
  apply List.ext_getElem?
  intro index
  rw [List.getElem?_modify, List.getElem?_map, List.getElem?_map, List.getElem?_modify]
  cases layout.blocks[index]? with
  | none => rfl
  | some block =>
      change some (if id = index then _ else _) = some (Block.map f (if id = index then _ else _))
      split <;> simp [Block.map]

theorem linkAll (sources : List BlockId) (target : BlockId) :
    Mirrors f (linkAll sources target) (linkAll sources target) := by
  induction sources with
  | nil => exact .pure ()
  | cons source sources ih =>
      rw [linkAll_cons]
      exact .bind (link source target) fun _ => ih

theorem linkTo? (source : BlockId) (target? : Option BlockId) :
    Mirrors f (linkTo? source target?) (linkTo? source target?) := by
  cases target? with
  | none => exact .pure ()
  | some target => exact link source target

theorem layBody (sources : List BlockId) (layMirrors : ∀ id, Mirrors f (lay id) (mirroredLay id)) :
    Mirrors f (layBody around role sources lay) (layBody around role sources mirroredLay) := by
  refine .bind (newBlock around role []) fun entry => ?_
  refine .bind (layMirrors entry) fun exit => ?_
  exact .bind (linkAll sources entry) fun _ => .pure exit

theorem layBetween (sources : List BlockId) (body : List Command) (target : BlockId)
    (layMirrors : ∀ id, Mirrors f (lay id) (mirroredLay id)) :
    Mirrors f (layBetween around role sources body lay target)
      (layBetween around role sources (Command.mapAll f body) mirroredLay target) := by
  rw [Layout.layBetween, Layout.layBetween, Command.isEmpty_mapAll]
  split
  · exact linkAll sources target
  · exact .bind (layBody sources layMirrors) fun exit => link exit target

theorem layOptional (source : BlockId) (body : List Command)
    (layMirrors : ∀ id, Mirrors f (lay id) (mirroredLay id)) :
    Mirrors f (layOptional around role source body lay)
      (layOptional around role source (Command.mapAll f body) mirroredLay) := by
  rw [Layout.layOptional, Layout.layOptional, Command.isEmpty_mapAll]
  split
  · exact .pure source
  · exact layBody [source] layMirrors

theorem newDispatch? (handlers : List (List Command)) :
    Mirrors f (newDispatch? around handlers)
      (newDispatch? around (Command.mapHandlers f handlers)) := by
  rw [Layout.newDispatch?, Layout.newDispatch?, Command.isEmpty_mapHandlers]
  split
  · exact .pure none
  · rw [map_eq_pure_bind]
    exact .bind (newBlock around .handlers []) fun dispatch => .pure (some dispatch)

mutual

theorem layCommand (around : Surroundings) : (command : Command) → (last : BlockId) →
    Mirrors f (layCommand around command last) (layCommand around (command.map f) last)
  | .place statement, last => by
      rw [Command.map, Layout.layCommand, Layout.layCommand]
      exact .bind (append last statement) fun _ => .pure last
  | .jump target statement, last => by
      rw [Command.map, Layout.layCommand, Layout.layCommand]
      refine .bind (append last statement) fun _ => ?_
      exact .bind (linkTo? last _) fun _ => newBlock around .unreachable []
  | .branch cond body rest, last => by
      rw [Command.map, Layout.layCommand, Layout.layCommand]
      refine .bind (newBlock around .ifCond [cond]) fun condBlock => ?_
      refine .bind (link last condBlock) fun _ => ?_
      refine .bind (layBody [condBlock] (layCommands around body)) fun bodyExit => ?_
      refine .bind (newBlock around .conditionalJoin []) fun join => ?_
      refine .bind (link bodyExit join) fun _ => ?_
      exact .bind (layAlternatives around rest condBlock join) fun _ => .pure join
  | .loop kind head bound body orelse, last => by
      rw [Command.map, Layout.layCommand, Layout.layCommand]
      refine .bind (newBlock around kind.headRole [head]) fun headBlock => ?_
      refine .bind (link last headBlock) fun _ => ?_
      refine .bind (newBlock around kind.joinRole []) fun join => ?_
      refine .bind (layBody [headBlock] (layCommands _ body)) fun bodyExit => ?_
      refine .bind (link bodyExit headBlock) fun _ => ?_
      exact .bind (layBetween [headBlock] orelse join (layCommands around orelse)) fun _ =>
        .pure join
  | .bracket bindings body, last => by
      rw [Command.map, Layout.layCommand, Layout.layCommand]
      refine .bind (newBlock around .withBindings bindings) fun bindingBlock => ?_
      refine .bind (link last bindingBlock) fun _ => ?_
      exact layBody [bindingBlock] (layCommands around body)
  | .guarded body handlers orelse finalbody, last => by
      rw [Command.map, Layout.layCommand, Layout.layCommand]
      simp only [Command.isEmpty_mapAll]
      refine .bind (newBlock around .tryJoin []) fun join => ?_
      refine .bind (newDispatch? handlers) fun dispatch? => ?_
      refine .bind (layHandlers around dispatch?.toList handlers) fun handlerExits => ?_
      refine .bind (layBody [last] (layCommands _ body)) fun bodyExit => ?_
      refine .bind (linkTo? bodyExit dispatch?) fun _ => ?_
      refine .bind (layOptional bodyExit orelse (layCommands around orelse)) fun normalExit => ?_
      exact .bind (layBetween _ finalbody join (layCommands around finalbody)) fun _ => .pure join

theorem layCommands (around : Surroundings) : (commands : List Command) → (last : BlockId) →
    Mirrors f (layCommands around commands last)
      (layCommands around (Command.mapAll f commands) last)
  | [], last => by
      rw [Command.mapAll, Layout.layCommands]
      exact .pure last
  | command :: rest, last => by
      rw [Command.mapAll, Layout.layCommands, Layout.layCommands]
      exact .bind (layCommand around command last) (layCommands around rest)

theorem layAlternatives (around : Surroundings) : (rest : Alternatives) →
    (condBlock join : BlockId) → Mirrors f (layAlternatives around rest condBlock join)
      (layAlternatives around (Command.mapAlternatives f rest) condBlock join)
  | .none, condBlock, join => by
      rw [Command.mapAlternatives, Layout.layAlternatives]
      exact link condBlock join
  | .further cond body rest, condBlock, join => by
      rw [Command.mapAlternatives, Layout.layAlternatives, Layout.layAlternatives]
      refine .bind (newBlock around .elifCond [cond]) fun furtherBlock => ?_
      refine .bind (link condBlock furtherBlock) fun _ => ?_
      refine .bind (layBody [furtherBlock] (layCommands around body)) fun bodyExit => ?_
      refine .bind (link bodyExit join) fun _ => ?_
      exact layAlternatives around rest furtherBlock join
  | .otherwise header body, condBlock, join => by
      rw [Command.mapAlternatives, Layout.layAlternatives, Layout.layAlternatives]
      refine .bind (newBlock around .elseCond [header]) fun headerBlock => ?_
      refine .bind (link condBlock headerBlock) fun _ => ?_
      refine .bind (layBody [headerBlock] (layCommands around body)) fun bodyExit => ?_
      exact link bodyExit join

theorem layHandlers (around : Surroundings) (dispatches : List BlockId) :
    (handlers : List (List Command)) → Mirrors f (layHandlers around dispatches handlers)
      (layHandlers around dispatches (Command.mapHandlers f handlers))
  | [] => by
      rw [Command.mapHandlers, Layout.layHandlers]
      exact .pure []
  | handler :: rest => by
      rw [Command.mapHandlers, Layout.layHandlers, Layout.layHandlers]
      refine .bind (layBody dispatches (layCommands around handler)) fun handlerExit => ?_
      exact .bind (layHandlers around dispatches rest) fun exits => .pure _

end

theorem layProgram (program : List Command) :
    Mirrors f (layProgram program) (layProgram (Command.mapAll f program)) := by
  refine .bind (newBlock _ .exceptionalExit []) fun exceptionalExit => ?_
  refine .bind (newBlock _ .entry []) fun entry => ?_
  exact .bind (layCommands _ program entry) fun _ => .pure _

end Mirrors

end Layout

namespace Graph

/-- Exchanges the statements of all blocks. -/
def map (f : Node → Node) (graph : Graph) : Graph :=
  { graph with blocks := graph.blocks.map (Block.map f) }

/-- The graph of a program with exchanged statements. -/
theorem ofCommands_mapAll (f : Node → Node) (program : List Command) :
    ofCommands (Command.mapAll f program) = (ofCommands program).map f := by
  have mirrored : Layout.Mirrors f (Layout.layProgram program) _ := .layProgram program
  have sameRun := mirrored {}
  change (Layout.layProgram (Command.mapAll f program)).run {} = _ at sameRun
  rw [ofCommands, sameRun]
  rfl

end Graph

end FlowAnalysis
