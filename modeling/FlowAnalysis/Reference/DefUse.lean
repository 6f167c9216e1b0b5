import FlowAnalysis.Reference.Basic

/-!
# Definitions and uses

A `DefUse` holds references at the three levels. It describes either one statement or the running
state between statements. `DefUse.update` lets a statement act on a running state, and
`DefUse.flowsFrom` lists the edges along which the running state reaches the statement.
-/

namespace FlowAnalysis

/-- The effect of `source` is visible at `target`. An edge that stands for control alone carries no
references. -/
structure Dataflow where
  source : Node
  target : Node
  sourceRef : Option Reference
  targetRef : Option Reference

namespace Dataflow

/-- The text that identifies an edge: the locations of its ends. -/
def key (flow : Dataflow) : String :=
  flow.source.key ++ "->" ++ flow.target.key

instance : Keyed Dataflow := ⟨key⟩

/-- The edge that stands for control alone. -/
def control (source target : Node) : Dataflow :=
  { source, target, sourceRef := none, targetRef := none }

/-- The edge along which one reference reaches another. -/
def between (source target : Reference) : Dataflow :=
  { source := source.owner, target := target.owner
    sourceRef := some source, targetRef := some target }

end Dataflow

/-- Edges in insertion order, one for each pair of locations. -/
abbrev DataflowSet := KeyedSet Dataflow

/-- References at the three levels. -/
structure DefUse where
  definitions : RefSet := .empty
  updates : RefSet := .empty
  uses : RefSet := .empty

namespace DefUse

/-- No references. -/
def empty : DefUse := {}

instance : Inhabited DefUse := ⟨empty⟩

/-- The references at a level. -/
def level (defUse : DefUse) : Level → RefSet
  | .definition => defUse.definitions
  | .update => defUse.updates
  | .use => defUse.uses

/-- The references with given sets at the three levels. -/
def ofLevels (levels : Level → RefSet) : DefUse :=
  { definitions := levels .definition, updates := levels .update, uses := levels .use }

/-- Everything that binds or rebinds a name. -/
def defs (defUse : DefUse) : RefSet :=
  defUse.definitions.union defUse.updates

/-- Everything that needs an earlier binding. -/
def allUses (defUse : DefUse) : RefSet :=
  defUse.updates.union defUse.uses

/-- The union at each level. -/
def union (defUse other : DefUse) : DefUse :=
  ofLevels fun level => (defUse.level level).union (other.level level)

/-- Whether two states have the same references at each level, in whatever order. -/
def sameRefs (defUse other : DefUse) : Bool :=
  Level.all.all fun level => (defUse.level level).sameKeys (other.level level)

/-- The references of a statement that flow into a level of the running state. -/
def generated (statement : DefUse) (level : Level) : RefSet :=
  .unionAll (level.generatedBy.map statement.level)

/-- Whether one of the generated references ends the effect of an earlier one. -/
def isKilledBy (earlier : Reference) (generated : RefSet) : Bool :=
  generated.toList.any fun reference =>
    reference.name == earlier.name && reference.level.kills earlier.level

/-- The running state after a statement: at each level what the statement generates is added, and
what it kills is removed. -/
def update (running statement : DefUse) : DefUse :=
  ofLevels fun level =>
    let generated := statement.generated level
    let current := running.level level
    let killed := current.filter fun earlier => isKilledBy earlier generated
    (current.minus killed).union generated

/-- The pairs of a reference of the running state and a reference of the statement with the same
name and at the same level, by levels and then in the statement's order. -/
def reachingPairs (statement running : DefUse) : List (Reference × Reference) :=
  Level.all.flatMap fun level =>
    (statement.level level).toList.flatMap fun target =>
      ((running.level level).toList.filter fun source => source.name == target.name).map
        fun source => (source, target)

/-- The references of a statement that some reference of the running state reaches. -/
def reachedFrom (statement running : DefUse) : RefSet :=
  .ofList ((statement.reachingPairs running).map Prod.snd)

/-- The edges along which the running state reaches the statement. -/
def flowsFrom (statement running : DefUse) : DataflowSet :=
  .ofList ((statement.reachingPairs running).map fun (source, target) => .between source target)

end DefUse

end FlowAnalysis
