import FlowAnalysis.Analysis.Analyzer

/-!
# The owners of references

Whatever kind of statement it is, the references that the analysis finds in a statement belong to
that statement.
-/

namespace FlowAnalysis

/-- References that all belong to one statement. -/
def OwnedBy (statement : Node) (references : List Reference) : Prop :=
  ∀ reference ∈ references, reference.owner = statement

/-- The names in an expression are read by the statement. -/
theorem reads_of_mem_nameUses {expression statement : Node} {reference : Reference}
    (isUse : reference ∈ nameUses expression statement) :
    reference.owner = statement ∧ reference.level = .use := by
  rcases List.mem_filterMap.1 isUse with ⟨node, -, found⟩
  rcases Option.bind_eq_some_iff.1 found with ⟨name, -, found⟩
  split at found
  · cases found
  · rw [← Option.some.inj found]
    exact ⟨rfl, rfl⟩

theorem level_of_mem_nameUses {expression statement : Node} {reference : Reference}
    (isUse : reference ∈ nameUses expression statement) : reference.level = .use :=
  (reads_of_mem_nameUses isUse).2

namespace OwnedBy

variable {statement : Node} {left right : List Reference}

theorem nil : OwnedBy statement [] :=
  fun _ member => absurd member List.not_mem_nil

theorem append (leftOwned : OwnedBy statement left) (rightOwned : OwnedBy statement right) :
    OwnedBy statement (left ++ right) :=
  fun reference member => (List.mem_append.1 member).elim (leftOwned reference) (rightOwned reference)

theorem flatMap {Item : Type} {items : List Item} {references : Item → List Reference}
    (owned : ∀ item ∈ items, OwnedBy statement (references item)) :
    OwnedBy statement (items.flatMap references) := by
  intro reference member
  rcases List.mem_flatMap.1 member with ⟨item, itemMem, member⟩
  exact owned item itemMem reference member

theorem map {Item : Type} {items : List Item} {reference : Item → Reference}
    (owned : ∀ item ∈ items, (reference item).owner = statement) :
    OwnedBy statement (items.map reference) := by
  intro found member
  rcases List.mem_map.1 member with ⟨item, itemMem, rfl⟩
  exact owned item itemMem

theorem cons {reference : Reference} (first : reference.owner = statement)
    (rest : OwnedBy statement left) : OwnedBy statement (reference :: left) := by
  intro found member
  rcases List.mem_cons.1 member with rfl | member
  · exact first
  · exact rest found member

theorem nameUses (expression statement : Node) :
    OwnedBy statement (nameUses expression statement) :=
  fun _ isUse => (reads_of_mem_nameUses isUse).1

theorem nameUses_flatMap (expressions : List Node) (statement : Node) :
    OwnedBy statement
      (expressions.flatMap fun expression => FlowAnalysis.nameUses expression statement) :=
  flatMap fun expression _ => nameUses expression statement

mutual

theorem targetReferences (statement : Node) (level : Level) (inferred : Option TypeSpec) :
    (target : Node) → OwnedBy statement (targetReferences statement level inferred target)
  | target => by
      unfold FlowAnalysis.targetReferences
      split
      · exact cons rfl nil
      · exact targetReferences statement .update none _
      · exact append (targetReferences statement .update none _) (nameUses_flatMap _ statement)
      · exact targetListReferences statement level _
      · exact targetListReferences statement level _
      · exact targetReferences statement level none _
      · exact nil

theorem targetListReferences (statement : Node) (level : Level) :
    (targets : List Node) → OwnedBy statement (targetListReferences statement level targets)
  | [] => nil
  | target :: rest =>
      append (targetReferences statement level none target)
        (targetListReferences statement level rest)

end

theorem callUpdates (symbols : SymbolTable) (running : RefSet) (statement : Node) :
    OwnedBy statement (callUpdates symbols running statement) := by
  refine flatMap fun node _ => ?_
  split
  · exact map fun _ _ => rfl
  · exact nil

theorem declaredDefinitions (statement : Node) :
    OwnedBy statement (declaredDefinitions statement) := by
  refine flatMap fun node _ => ?_
  split
  · exact map fun _ _ => rfl
  · exact nil

end OwnedBy

end FlowAnalysis
