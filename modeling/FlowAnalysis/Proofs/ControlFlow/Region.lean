import FlowAnalysis.ControlFlow.Construction
import FlowAnalysis.Proofs.ControlFlow.Path

/-!
# Where commands lie in a graph

`Command.LaidOut` describes, without reference to the construction, how a command lies in a finished
graph between two points: which blocks it has, what they hold, and all edges that leave them. A
jump leaves for a target in the surroundings; apart from that, control enters at the first point
only and leaves at the second. What a graph does along its paths can be read off this description
command by command.
-/

namespace FlowAnalysis

/-- A place in a graph: a block and the number of its statements that lie behind. -/
structure Point where
  block : BlockId
  offset : Nat

namespace Graph

/-- The edges that leave a block lead to the given blocks. -/
def Leads (graph : Graph) (source : BlockId) (targets : List BlockId) : Prop :=
  ∀ target, target ∈ graph.successors source ↔ target ∈ targets

/-- The point is the end of its block, and control goes on to the given blocks. -/
def EndsIn (graph : Graph) (point : Point) (targets : List BlockId) : Prop :=
  point.offset = (graph.statements point.block).length ∧ graph.Leads point.block targets

/-- The point is followed by a statement of its block. -/
def At (graph : Graph) (point : Point) (statement : Node) : Prop :=
  (graph.statements point.block)[point.offset]? = some statement

/-- A body fills the way from an entry block to a block where control goes on. -/
def Detour (graph : Graph) (body : Point → Point → Prop) (entry target : BlockId) : Prop :=
  ∃ exit, body ⟨entry, 0⟩ exit ∧ graph.EndsIn exit [target]

/-- A body that is left out if it is empty fills the way from an entry block to a block where
control goes on. -/
def OptionalDetour (graph : Graph) (commands : List Command) (body : Point → Point → Prop)
    (entry target : BlockId) : Prop :=
  if commands.isEmpty then entry = target else graph.Detour body entry target

end Graph

/-- Where the jumps of a whole program go: exceptions leave it. -/
def Surroundings.outside (handler : BlockId) : Surroundings where
  innermostLoop := none
  handler
  loopVariables := []

namespace Command

mutual

/-- A command lies between two points of a graph. -/
def LaidOut (graph : Graph) (around : Surroundings) : Command → Point → Point → Prop
  | .place statement, start, stop =>
      graph.At start statement ∧ stop = ⟨start.block, start.offset + 1⟩
  | .jump target statement, start, _ =>
      graph.At start statement ∧
        graph.EndsIn ⟨start.block, start.offset + 1⟩ (around.target? target).toList
  | .branch cond body rest, start, stop =>
      ∃ condBlock bodyEntry restEntry,
        graph.EndsIn start [condBlock] ∧ graph.statements condBlock = [cond] ∧
        graph.Leads condBlock [bodyEntry, restEntry] ∧
        graph.Detour (AllLaidOut graph around body) bodyEntry stop.block ∧
        AlternativesLaidOut graph around rest restEntry stop.block ∧ stop.offset = 0
  | .loop _ head bound body orelse, start, stop =>
      ∃ headBlock bodyEntry elseEntry,
        graph.EndsIn start [headBlock] ∧ graph.statements headBlock = [head] ∧
        graph.Leads headBlock [bodyEntry, elseEntry] ∧
        graph.Detour
          (AllLaidOut graph (around.insideLoop { head := headBlock, exit := stop.block } bound) body)
          bodyEntry headBlock ∧
        graph.OptionalDetour orelse (AllLaidOut graph around orelse) elseEntry stop.block ∧
        stop.offset = 0
  | .bracket bindings body, start, stop =>
      ∃ bindingBlock bodyEntry,
        graph.EndsIn start [bindingBlock] ∧ graph.statements bindingBlock = bindings ∧
        graph.Leads bindingBlock [bodyEntry] ∧ AllLaidOut graph around body ⟨bodyEntry, 0⟩ stop
  | .guarded body handlers orelse finalbody, start, stop =>
      ∃ dispatch? : Option BlockId, ∃ handlerEntries bodyEntry bodyExit elseEntry lastEntry,
        graph.EndsIn start [bodyEntry] ∧
        AllLaidOut graph (around.guardedBy (dispatch?.getD around.handler)) body ⟨bodyEntry, 0⟩
          bodyExit ∧
        graph.EndsIn bodyExit (elseEntry :: dispatch?.toList) ∧
        (dispatch? = none ↔ handlers = []) ∧
        (∀ dispatch ∈ dispatch?,
          graph.statements dispatch = [] ∧ graph.Leads dispatch handlerEntries) ∧
        HandlersLaidOut graph around handlers handlerEntries lastEntry ∧
        graph.OptionalDetour orelse (AllLaidOut graph around orelse) elseEntry lastEntry ∧
        graph.OptionalDetour finalbody (AllLaidOut graph around finalbody) lastEntry stop.block ∧
        stop.offset = 0

/-- Commands lie one after the other between two points. -/
def AllLaidOut (graph : Graph) (around : Surroundings) : List Command → Point → Point → Prop
  | [], start, stop => stop = start
  | command :: rest, start, stop =>
      ∃ middle, LaidOut graph around command start middle ∧
        AllLaidOut graph around rest middle stop

/-- What comes after a condition that does not hold lies between two blocks. -/
def AlternativesLaidOut (graph : Graph) (around : Surroundings) :
    Alternatives → BlockId → BlockId → Prop
  | .none, entry, join => entry = join
  | .further cond body rest, entry, join =>
      ∃ bodyEntry restEntry,
        graph.statements entry = [cond] ∧ graph.Leads entry [bodyEntry, restEntry] ∧
        graph.Detour (AllLaidOut graph around body) bodyEntry join ∧
        AlternativesLaidOut graph around rest restEntry join
  | .otherwise header body, entry, join =>
      ∃ bodyEntry,
        graph.statements entry = [header] ∧ graph.Leads entry [bodyEntry] ∧
        graph.Detour (AllLaidOut graph around body) bodyEntry join

/-- Each of some handlers fills the way from its entry block to a common block. -/
def HandlersLaidOut (graph : Graph) (around : Surroundings) :
    List (List Command) → List BlockId → BlockId → Prop
  | [], entries, _ => entries = []
  | handler :: rest, entries, target =>
      ∃ entry restEntries, entries = entry :: restEntries ∧
        graph.Detour (AllLaidOut graph around handler) entry target ∧
        HandlersLaidOut graph around rest restEntries target

end

/-- A program lies in a well-formed graph: from the entry up to a block that control does not leave,
with an empty block for the exceptions that nothing handles. -/
structure ProgramLaidOut (graph : Graph) (program : List Command) : Prop where
  wellFormed : graph.WellFormed
  exit_statements : graph.statements graph.exceptionalExit = []
  exit_leads : graph.Leads graph.exceptionalExit []
  laid : ∃ stop, AllLaidOut graph (.outside graph.exceptionalExit) program ⟨graph.entry, 0⟩ stop ∧
    graph.EndsIn stop [] ∧ stop.block ≠ graph.exceptionalExit

end Command

end FlowAnalysis
