import FlowAnalysis.Proofs.Analysis.Locations

/-!
# Places of statements

What is known about a statement is kept under its location, so it matters where the statements of a
program stand, and not where its expressions do. Some expressions stand where others do, such as the
beginning of a chain of boolean operators and the whole chain. The places of a node are the
locations of what its analysis can come to, and of nothing else.
-/

namespace FlowAnalysis

namespace Node

variable {node part part' statement other left right root : Node} {nodes first second : List Node}

/-- The size of a node that has parts. Bindings have none, so it does not matter how large they
are. -/
def partedSize (node : Node) : Nat :=
  if node.parts.isEmpty then 0 else node.size

theorem IsPart.partedSize_lt (isPart : node.IsPart part) : part.partedSize < node.partedSize := by
  have isParted : node.partedSize = node.size :=
    if_neg fun none => absurd isPart (by simp [IsPart, List.isEmpty_iff.1 none])
  rw [isParted]
  rcases isPart.mem_children_or_bindsWithin with isChild | ⟨targets, sources, location, rfl, -⟩
  · apply Nat.lt_of_le_of_lt _ (size_lt_of_mem_children isChild)
    rw [partedSize]
    split <;> omega
  · exact node.size_pos

/-- The locations of a node and of the statements within it. -/
def places (node : Node) : List Location :=
  node.location :: node.parts.attach.flatMap fun ⟨part, _⟩ => places part
termination_by node.partedSize
decreasing_by exact IsPart.partedSize_lt (by assumption)

/-- The locations of the statements within a node, except for the node itself. -/
def innerPlaces (node : Node) : List Location :=
  node.parts.flatMap places

theorem places_eq (node : Node) : node.places = node.location :: node.innerPlaces := by
  rw [places, innerPlaces]
  simp

theorem Within.location_mem_places (within : node.Within statement) :
    statement.location ∈ node.places := by
  induction within using Relation.ReflTransGen.head_induction_on with
  | refl =>
      rw [places_eq]
      exact List.mem_cons_self
  | head isPart _ isInside =>
      rw [places_eq]
      exact List.mem_cons_of_mem _ (List.mem_flatMap.2 ⟨_, isPart, isInside⟩)

theorem places_sublist_footprint (node : Node) : node.places.Sublist node.footprint := by
  by_cases none : node.parts = []
  · simp [places_eq, innerPlaces, footprint, none]
  · have hasParts : node.footprint = node.locations := if_neg (by simpa using none)
    rw [places_eq, hasParts, locations_eq]
    apply List.Sublist.cons_cons
    apply List.Sublist.trans _ (footprints_sublist node)
    exact .flatMap_right node.parts fun part isPart => places_sublist_footprint part
termination_by node.partedSize
decreasing_by exact IsPart.partedSize_lt isPart

theorem places_sublist (node : Node) : node.places.Sublist node.locations :=
  (places_sublist_footprint node).trans (footprint_sublist node)

theorem Within.location_mem (within : node.Within statement) :
    statement.location ∈ node.locations :=
  (places_sublist node).subset (Within.location_mem_places within)

/-- Where no location occurs twice, all statements stand at places of their own. -/
theorem places_nodup (distinct : node.locations.Nodup) : node.places.Nodup :=
  distinct.sublist (places_sublist node)

theorem innerPlaces_subset (node : Node) : node.innerPlaces ⊆ node.locations := by
  have inPlaces : node.innerPlaces ⊆ node.places := by
    rw [places_eq]
    exact List.subset_cons_self _ _
  exact List.Subset.trans inPlaces (places_sublist node).subset

theorem innerPlaces_nodup (distinct : node.locations.Nodup) : node.innerPlaces.Nodup := by
  have distinctPlaces := places_nodup distinct
  rw [places_eq] at distinctPlaces
  exact (List.nodup_cons.1 distinctPlaces).2

/-! ### Statements at places of their own -/

theorem location_ne_of_mem_parts (distinct : node.places.Nodup) (isPart : node.IsPart part)
    (within : part.Within statement) : node.location ≠ statement.location := by
  rw [places_eq] at distinct
  intro same
  apply (List.nodup_cons.1 distinct).1
  rw [same]
  exact List.mem_flatMap.2 ⟨part, isPart, within.location_mem_places⟩

theorem location_ne_of_ne (distinct : (nodes.flatMap places).Nodup) (isMember : part ∈ nodes)
    (isMember' : part' ∈ nodes) (differs : part ≠ part') (within : part.Within left)
    (within' : part'.Within right) : left.location ≠ right.location := by
  have isPlace := within.location_mem_places
  have isPlace' := within'.location_mem_places
  intro same
  rw [← same] at isPlace'
  exact differs (eq_of_mem_flatMap distinct isMember isMember' isPlace isPlace')

/-- Statements at places of their own are told apart by these. -/
theorem Within.eq_of_place_eq (within : part.Within left) (within' : part'.Within right)
    (distinct : (nodes.flatMap places).Nodup) (isMember : part ∈ nodes) (isMember' : part' ∈ nodes)
    (same : left.location = right.location) : left = right := by
  induction within using Relation.ReflTransGen.head_induction_on generalizing nodes part' with
  | refl =>
      by_cases samePart : left = part'
      · subst samePart
        rcases within'.cases_head with rfl | ⟨inner, isPart, within'⟩
        · rfl
        · have distinctPart := (List.nodup_flatMap.1 distinct).1 _ isMember
          exact absurd same (location_ne_of_mem_parts distinctPart isPart within')
      · exact absurd same (location_ne_of_ne distinct isMember isMember' samePart .refl within')
  | @head part inner isPart within ih =>
      by_cases samePart : part = part'
      · subst samePart
        have distinctPart := (List.nodup_flatMap.1 distinct).1 _ isMember
        rcases within'.cases_head with rfl | ⟨inner', isPart', within'⟩
        · exact absurd same.symm (location_ne_of_mem_parts distinctPart isPart within)
        · rw [places_eq] at distinctPart
          exact ih within' (List.nodup_cons.1 distinctPart).2 isPart isPart'
      · exact absurd same (location_ne_of_ne distinct isMember isMember' samePart
          (.head isPart within) within')

/-- Where no location occurs twice, the statements within a node are told apart by theirs. -/
theorem Within.eq_of_location_eq (within : node.Within left) (within' : node.Within right)
    (distinct : node.locations.Nodup) (same : left.location = right.location) : left = right := by
  have distinctPlaces : ([node].flatMap places).Nodup := by
    rw [List.flatMap_singleton]
    exact places_nodup distinct
  have isMember : node ∈ [node] := List.mem_singleton_self node
  exact Within.eq_of_place_eq within within' distinctPlaces isMember isMember same

/-- What is within different parts has different keys. -/
theorem key_ne_of_parts (distinct : root.innerPlaces.Nodup) (partsEq : root.parts = first ++ second)
    (isFirst : part ∈ first) (isSecond : part' ∈ second) (within : part.Within left)
    (within' : part'.Within right) : left.key ≠ right.key := by
  rw [innerPlaces, partsEq, List.flatMap_append] at distinct
  have inFirst := List.mem_flatMap.2 ⟨part, isFirst, within.location_mem_places⟩
  have inSecond := List.mem_flatMap.2 ⟨part', isSecond, within'.location_mem_places⟩
  intro sameKey
  exact (List.nodup_append.1 distinct).2.2 _ inFirst _ inSecond (key_eq_iff.1 sameKey)

theorem location_mem_innerPlaces (beneath : Relation.TransGen IsPart root statement) :
    statement.location ∈ root.innerPlaces := by
  rcases Relation.TransGen.head'_iff.1 beneath with ⟨part, isPart, within⟩
  exact List.mem_flatMap.2 ⟨part, isPart, Within.location_mem_places within⟩

/-- Where no place occurs twice, keys tell the statements of a program apart. -/
theorem eq_of_key_eq_of_beneath (distinct : root.innerPlaces.Nodup)
    (beneath : Relation.TransGen IsPart root left) (beneath' : Relation.TransGen IsPart root right)
    (same : left.key = right.key) : left = right := by
  rcases Relation.TransGen.head'_iff.1 beneath with ⟨part, isPart, within⟩
  rcases Relation.TransGen.head'_iff.1 beneath' with ⟨part', isPart', within'⟩
  exact Within.eq_of_place_eq within within' distinct isPart isPart' (key_eq_iff.1 same)

/-! ### Statements in no function or class -/

/-- A part of a node that defines neither a function nor a class. -/
def IsPlainPart (node part : Node) : Prop :=
  Analysis.opensNamedScope node = false ∧ node.IsPart part

/-- No function or class stands in the place of a last clause. -/
def HasPlainClauses (root : Node) : Prop :=
  ∀ inner header, root.Within inner → inner.lastClause? = some header →
    Analysis.opensNamedScope header = false

theorem mem_walk_or_binding_of_within (within : root.Within statement) :
    statement ∈ root.walk ∨
      ∃ targets sources location, statement = .binding targets sources location := by
  induction within with
  | refl => exact .inl root.self_mem_walk
  | tail _ isPart ih =>
      rcases ih with isInside | ⟨targets, sources, location, rfl⟩
      · rcases isPart.mem_children_or_bindsWithin with isChild | ⟨targets, sources, location, rfl, -⟩
        · exact .inl (walk_subset_of_mem_walk isInside
            (walk_subset_of_mem_children isChild (self_mem_walk _)))
        · exact .inr ⟨targets, sources, location, rfl⟩
      · exact absurd isPart List.not_mem_nil

/-- Functions and classes in the place of a last clause can be looked for. -/
theorem hasPlainClauses_of_walk (plain : ∀ inner ∈ root.walk,
    (inner.lastClause?.all fun header => !Analysis.opensNamedScope header) = true) :
    root.HasPlainClauses := by
  intro inner header within isLast
  rcases mem_walk_or_binding_of_within within with isInside | ⟨targets, sources, location, rfl⟩
  · simpa [isLast] using plain inner isInside
  · cases isLast

theorem WithinOuter.plain (within : node.WithinOuter statement) (plain : node.HasPlainClauses) :
    Relation.ReflTransGen IsPlainPart node statement := by
  induction within with
  | refl => exact .refl
  | @tail middle part within isOuterPart ih =>
      rcases isOuterPart with ⟨noScope, isPart | ⟨header, isLast, isPart⟩⟩
      · exact ih.tail ⟨noScope, isPart⟩
      · have noScope' := plain middle header (WithinOuter.within within) isLast
        exact (ih.tail ⟨noScope, isPart_of_lastClause isLast⟩).tail ⟨noScope', isPart⟩

/-- Where no place occurs twice, what is reached through plain parts is in no function or class. -/
theorem not_beneath_of_plain (plain : Relation.ReflTransGen IsPlainPart part statement)
    (distinct : (nodes.flatMap places).Nodup) (isMember : part ∈ nodes) (isMember' : part' ∈ nodes)
    (within : part'.Within other) (opens : Analysis.opensNamedScope other = true) :
    ¬Relation.TransGen IsPart other statement := by
  intro beneath
  induction plain using Relation.ReflTransGen.head_induction_on generalizing nodes part' with
  | refl =>
      rcases Relation.TransGen.head'_iff.1 (Relation.TransGen.trans_right within beneath) with
        ⟨inner, isPart, withinInner⟩
      have samePart : statement = part' := by
        by_contra differs
        exact location_ne_of_ne distinct isMember isMember' differs .refl
          (within.trans beneath.to_reflTransGen) rfl
      subst samePart
      have distinctPart := (List.nodup_flatMap.1 distinct).1 _ isMember
      exact location_ne_of_mem_parts distinctPart isPart withinInner rfl
  | @head part next isPlainPart plain ih =>
      have withinNext : next.Within statement :=
        plain.lift id fun _ _ isPlainPart => isPlainPart.2
      have samePart : part = part' := by
        by_contra differs
        exact location_ne_of_ne distinct isMember isMember' differs
          (.head isPlainPart.2 withinNext) (within.trans beneath.to_reflTransGen) rfl
      subst samePart
      rcases within.cases_head with rfl | ⟨inner, isPart, withinInner⟩
      · rw [isPlainPart.1] at opens
        cases opens
      · have distinctPart := (List.nodup_flatMap.1 distinct).1 _ isMember
        rw [places_eq] at distinctPart
        exact ih (List.nodup_cons.1 distinctPart).2 isPlainPart.2 isPart withinInner

end Node

/-- What is placed in the graph of a list of statements is within one of them, and in no function or
class in it. -/
theorem Graph.exists_outer_of_mem_statements {code : List Node} {statement : Node} {id : BlockId}
    (isPlaced : statement ∈ (Graph.ofStatements code).statements id) :
    ∃ node ∈ code, node.WithinOuter statement := by
  have isLabel := Graph.mem_labels_of_mem_statements isPlaced
  rw [Command.nestingAll_ofNodes] at isLabel
  exact Node.outer_of_mem_nestingAll code isLabel

theorem Graph.exists_within_of_mem_statements {code : List Node} {statement : Node} {id : BlockId}
    (isPlaced : statement ∈ (Graph.ofStatements code).statements id) :
    ∃ node ∈ code, node.Within statement := by
  rcases exists_outer_of_mem_statements isPlaced with ⟨node, isMember, within⟩
  exact ⟨node, isMember, Node.WithinOuter.within within⟩

/-- Where no place occurs twice, what is placed in the graph of a program is in no function or class
in it. -/
theorem Graph.not_beneath_of_mem_statements {root other statement : Node} {id : BlockId}
    (distinct : root.innerPlaces.Nodup) (plain : root.HasPlainClauses)
    (isPlaced : statement ∈ (Graph.ofStatements root.parts).statements id)
    (beneath : Relation.TransGen Node.IsPart root other)
    (opens : Analysis.opensNamedScope other = true) :
    ¬Relation.TransGen Node.IsPart other statement := by
  rcases exists_outer_of_mem_statements isPlaced with ⟨part, isPart, within⟩
  rcases Relation.TransGen.head'_iff.1 beneath with ⟨part', isPart', within'⟩
  have partPlain : part.HasPlainClauses :=
    fun inner header withinPart => plain inner header (.head isPart withinPart)
  exact Node.not_beneath_of_plain (Node.WithinOuter.plain within partPlain) distinct isPart isPart'
    within' opens

end FlowAnalysis
