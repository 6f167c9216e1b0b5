import FlowAnalysis.Proofs.Analysis.Session
import FlowAnalysis.Proofs.ControlFlow.Placement
import FlowAnalysis.Proofs.Location
import FlowAnalysis.Proofs.Tree.Walk
import Mathlib.Data.List.Flatten
import Mathlib.Data.List.Pairwise

/-!
# Locations of statements

An analysis knows statements by the keys of their locations. Not all of them are nodes of the
program: loops, resources and handlers bind names by assignments that stand at locations of their
own, or at that of the resource, which is then no statement itself. These too are within the node
that makes them, and take up locations that are theirs or its own.
-/

namespace FlowAnalysis

namespace Node

variable {node part statement other : Node}

/-- The locations at which a node makes bindings that are no nodes themselves. -/
def bindingLocations (node : Node) : List Location :=
  match node.shape with
  | .forLoop _ _ _ _ declLocation => [declLocation]
  | .tryBlock _ handlers _ _ => handlers.map ExceptHandler.location
  | _ => []

/-- The locations that occur in a tree. -/
def locations (node : Node) : List Location :=
  node.walk.flatMap fun inner => inner.location :: inner.bindingLocations

theorem locations_eq (node : Node) :
    node.locations =
      node.location :: (node.bindingLocations ++ node.children.flatMap locations) := by
  rw [locations, walk_eq, List.flatMap_cons, List.flatMap_assoc]
  rfl

/-! ### Parts -/

/-- What is listed for some nodes, without repetition, is listed for one of them only. -/
theorem eq_of_mem_flatMap {nodes : List Node} {listed : Node → List Location} {location : Location}
    (distinct : (nodes.flatMap listed).Nodup) (isMember : part ∈ nodes) (isMember' : other ∈ nodes)
    (isListed : location ∈ listed part) (isListed' : location ∈ listed other) : part = other := by
  have symmetric : Std.Symm (Function.onFun List.Disjoint listed) :=
    ⟨fun _ _ apart => List.disjoint_symm apart⟩
  by_contra differs
  exact (List.nodup_flatMap.1 distinct).2.forall isMember isMember' differs isListed isListed'

/-- The statements that an analysis can come to from a node: its body, its conditions, and the
bindings that it makes. -/
def parts (node : Node) : List Node :=
  match node.shape with
  | .module code => code
  | .definition _ _ body _ => body
  | .classDefinition _ _ body _ => body
  | .elseClause body => body
  | .conditional cond body elifs orelse =>
      cond :: (body ++ (elifs.flatMap fun clause => clause.cond :: clause.body) ++ orelse.toList)
  | .whileLoop cond body orelse => cond :: (body ++ orelse)
  | .forLoop targets iter body orelse declLocation =>
      .binding targets iter declLocation :: (body ++ orelse)
  | .withBlock items body => items.map WithItem.placed ++ body
  | .tryBlock body handlers orelse finalbody =>
      handlers.flatMap boundBy ++
        (body ++ handlers.flatMap (fun handler => guards handler ++ handler.body) ++ orelse ++
          finalbody)
  | _ => []
where
  boundBy (handler : ExceptHandler Node) : List Node :=
    match handler.cond, handler.name with
    | some cond, some name =>
        [.binding [⟨.name name, handler.location⟩] [cond] handler.location]
    | _, _ => []
  guards (handler : ExceptHandler Node) : List Node :=
    match handler.cond, handler.name with
    | some cond, none => [cond]
    | _, _ => []

/-- The locations that the statements within a node take up. -/
def footprint (node : Node) : List Location :=
  if node.parts.isEmpty then [node.location] else node.locations

theorem footprint_sublist (node : Node) : node.footprint.Sublist node.locations := by
  rw [footprint]
  split
  · rw [locations_eq]
    simp
  · exact .refl _

theorem flatMap_footprint_sublist (nodes : List Node) :
    (nodes.flatMap footprint).Sublist (nodes.flatMap locations) :=
  .flatMap_right nodes fun node _ => footprint_sublist node

theorem footprint_binding (targets sources : List Node) (location : Location) :
    (Node.binding targets sources location).footprint = [location] := rfl

theorem footprint_placed_sublist (item : WithItem Node) :
    item.placed.footprint.Sublist item.context.locations := by
  rw [WithItem.placed]
  split
  · rw [footprint_binding, locations_eq]
    simp
  · exact footprint_sublist _

theorem footprint_boundBy_sublist (handler : ExceptHandler Node) :
    ((parts.boundBy handler).flatMap footprint).Sublist [handler.location] := by
  rw [parts.boundBy]
  split
  · simp [footprint_binding]
  · simp

theorem guards_sublist (handler : ExceptHandler Node) :
    (parts.guards handler).Sublist handler.cond.toList := by
  rw [parts.guards]
  split <;> simp_all

/-- The parts of a node take up locations of their own. -/
theorem footprints_sublist (node : Node) :
    (node.parts.flatMap footprint).Sublist
      (node.bindingLocations ++ node.children.flatMap locations) := by
  have ofChildren : ∀ {nodes children : List Node}, nodes.Sublist children →
      (nodes.flatMap footprint).Sublist (children.flatMap locations) :=
    fun inside => (flatMap_footprint_sublist _).trans (inside.flatMap locations)
  rcases node with ⟨shape, location⟩
  cases shape
  case forLoop targets iter body orelse declLocation =>
    have inside : (body ++ orelse).Sublist (targets ++ (iter ++ (body ++ orelse))) :=
      (List.sublist_append_right _ _).trans (List.sublist_append_right _ _)
    simpa [parts, bindingLocations, children, Shape.children, Shape.fields, Field.subtrees,
      footprint_binding] using ofChildren inside
  case withBlock items body =>
    have placed : ((items.map WithItem.placed).flatMap footprint).Sublist
        ((items.flatMap fun item => item.context :: item.target.toList).flatMap locations) := by
      rw [List.flatMap_map, List.flatMap_assoc]
      refine .flatMap_right items fun item _ => (footprint_placed_sublist item).trans ?_
      simp
    simpa [parts, bindingLocations, children, Shape.children, Shape.fields, Field.subtrees] using
      placed.append (flatMap_footprint_sublist body)
  case tryBlock body handlers orelse finalbody =>
    have bound : ((handlers.flatMap parts.boundBy).flatMap footprint).Sublist
        (handlers.map ExceptHandler.location) := by
      rw [List.flatMap_assoc, List.map_eq_flatMap]
      exact .flatMap_right handlers fun handler _ => footprint_boundBy_sublist handler
    have guarded := ofChildren (List.Sublist.flatMap_right handlers fun handler _ =>
      (guards_sublist handler).append (.refl handler.body))
    simpa [parts, bindingLocations, children, Shape.children, Shape.fields, Field.subtrees] using
      bound.append ((flatMap_footprint_sublist body).append (guarded.append
        ((flatMap_footprint_sublist orelse).append (flatMap_footprint_sublist finalbody))))
  all_goals
    apply ofChildren
    simp [parts, children, Shape.children, Shape.fields, Field.subtrees]

/-- A statement that a node looks at first when it is analyzed. -/
def IsPart (node part : Node) : Prop :=
  part ∈ node.parts

/-- A node, its parts, their parts, and so on. -/
abbrev Within : Node → Node → Prop :=
  Relation.ReflTransGen IsPart

/-- A node binds what is among the children of another one, or a name where that one makes a
binding. -/
def BindsWithin (node part : Node) : Prop :=
  ∃ targets sources location, part = .binding targets sources location ∧
    ∀ child ∈ targets ++ sources, child ∈ node.children ∨
      ∃ id, child.shape = .name id ∧ child.location ∈ node.bindingLocations

/-- A part of a node is a child of it or a binding that it makes. -/
theorem IsPart.mem_children_or_bindsWithin (isPart : node.IsPart part) :
    part ∈ node.children ∨ node.BindsWithin part := by
  rw [IsPart, parts] at isPart
  rcases node with ⟨shape, location⟩
  cases shape
  case forLoop targets iter body orelse declLocation =>
    rcases List.mem_cons.1 isPart with isBinding | isChild
    · refine .inr ⟨targets, iter, declLocation, isBinding, fun child isMember => .inl ?_⟩
      simpa [children, Shape.children, Shape.fields, Field.subtrees, or_assoc] using
        List.mem_append_left (body ++ orelse) isMember
    · left
      rw [List.mem_append] at isChild
      simp [children, Shape.children, Shape.fields, Field.subtrees, isChild]
  case withBlock items body =>
    rcases List.mem_append.1 isPart with isPlaced | isChild
    · rcases List.mem_map.1 isPlaced with ⟨item, isItem, rfl⟩
      rw [WithItem.placed]
      split
      · next target isTarget =>
          refine .inr ⟨[target], [item.context], _, rfl, fun child isMember => .inl ?_⟩
          simp only [children, Shape.children, Shape.fields, List.flatMap_cons, Field.subtrees]
          apply List.mem_append_left
          refine List.mem_flatMap.2 ⟨item, isItem, ?_⟩
          simp_all
          tauto
      · left
        simp only [children, Shape.children, Shape.fields, List.flatMap_cons, Field.subtrees]
        apply List.mem_append_left
        exact List.mem_flatMap.2 ⟨item, isItem, List.mem_cons_self⟩
    · left
      simp [children, Shape.children, Shape.fields, Field.subtrees, isChild]
  case tryBlock body handlers orelse finalbody =>
    rcases List.mem_append.1 isPart with isBound | isChild
    · rcases List.mem_flatMap.1 isBound with ⟨handler, isHandler, isBinding⟩
      rw [parts.boundBy] at isBinding
      split at isBinding
      · next cond name isCond isName =>
          refine .inr ⟨[⟨.name name, handler.location⟩], [cond], handler.location,
            List.mem_singleton.1 isBinding, fun child isMember => ?_⟩
          rcases List.mem_append.1 isMember with isTarget | isSource
          · rw [List.mem_singleton.1 isTarget]
            exact .inr ⟨name, rfl, List.mem_map_of_mem isHandler⟩
          · left
            simp only [children, Shape.children, Shape.fields, List.flatMap_cons, Field.subtrees]
            apply List.mem_append_right
            apply List.mem_append_left
            refine List.mem_flatMap.2 ⟨handler, isHandler, ?_⟩
            simp [isCond, List.mem_singleton.1 isSource]
      · simp at isBinding
    · left
      have guarded := List.Sublist.flatMap_right handlers fun handler _ =>
        (guards_sublist handler).append (.refl handler.body)
      have inside := (guarded.append (.refl (orelse ++ finalbody))).append_left body
      simp only [children, Shape.children, Shape.fields, List.flatMap_cons, Field.subtrees]
      have := inside.subset (by simpa [List.append_assoc] using isChild)
      simpa using this
  all_goals
    left
    simp_all [children, Shape.children, Shape.fields, Field.subtrees]

/-! ### Statements that are placed -/

/-- The last clause of a conditional. Any node with a body can stand in its place. -/
def lastClause? (node : Node) : Option Node :=
  match node.shape with
  | .conditional _ _ _ orelse => orelse
  | _ => none

/-- A part of a node that defines neither a function nor a class, or of the last clause of one. -/
def IsOuterPart (node part : Node) : Prop :=
  Analysis.opensNamedScope node = false ∧
    (node.IsPart part ∨ ∃ header, node.lastClause? = some header ∧ header.IsPart part)

/-- A node, its outer parts, their outer parts, and so on. -/
abbrev WithinOuter : Node → Node → Prop :=
  Relation.ReflTransGen IsOuterPart

theorem isPart_of_lastClause {header : Node} (isLast : node.lastClause? = some header) :
    node.IsPart header := by
  rw [lastClause?] at isLast
  split at isLast
  · next isConditional => simp [IsPart, parts, isConditional, isLast]
  · cases isLast

theorem IsOuterPart.within (isOuterPart : node.IsOuterPart part) : node.Within part := by
  rcases isOuterPart with ⟨-, isPart | ⟨header, isLast, isPart⟩⟩
  · exact .single isPart
  · exact .head (isPart_of_lastClause isLast) (.single isPart)

theorem WithinOuter.within (within : node.WithinOuter part) : node.Within part := by
  induction within with
  | refl => exact .refl
  | tail _ isOuterPart ih => exact ih.trans isOuterPart.within

section

variable {label : Node}

/-- What is within some parts of a node is within it, unless the node defines a function or a
class. -/
theorem withinOuter_of_parts {nodes : List Node} (noScope : Analysis.opensNamedScope node = false)
    (areParts : ∀ part ∈ nodes, part ∈ node.parts)
    (inParts : ∃ part ∈ nodes, part.WithinOuter label) : node.WithinOuter label := by
  rcases inParts with ⟨part, isMember, within⟩
  exact .head ⟨noScope, .inl (areParts part isMember)⟩ within

theorem outer_nestingClause {header : Node} {body : List Node} {empty : Bool}
    (areParts : body ⊆ header.parts)
    (inBody : label ∈ (nestingAll body).labels → ∃ node ∈ body, node.WithinOuter label)
    (isLabel : label ∈ (nestingClause header (nestingAll body) empty).labels) :
    label = header ∨ ∃ part ∈ header.parts, part.WithinOuter label := by
  rw [nestingClause] at isLabel
  split at isLabel
  · simp [Forest.labels] at isLabel
  · rcases List.mem_cons.1 isLabel with isHeader | isLabel
    · exact .inl isHeader
    · rcases inBody isLabel with ⟨node, isMember, within⟩
      exact .inr ⟨node, areParts isMember, within⟩

mutual

/-- What a statement places is within it, and in no function or class in it. -/
theorem outer_of_mem_nesting : (node : Node) → label ∈ node.nesting.labels → node.WithinOuter label
  | ⟨shape, location⟩, isLabel => by
      cases shape
      case conditional cond body elifs orelse =>
        simp only [nesting, Forest.labels, Forest.labels_append, List.append_nil, List.mem_cons,
          List.mem_append] at isLabel
        rcases isLabel with rfl | inBody | isLabel
        · exact .single ⟨rfl, .inl (by simp [IsPart, parts])⟩
        · exact withinOuter_of_parts rfl (by simp +contextual [parts])
            (outer_of_mem_nestingAll body inBody)
        · rcases outer_of_mem_nestingClauses elifs isLabel with ⟨node, isMember, within⟩ | isLast
          · refine .head ⟨rfl, .inl ?_⟩ within
            simp only [IsPart, parts, List.mem_cons, List.mem_append, isMember, or_true, true_or]
          · rcases outer_of_mem_nestingOrelse orelse isLast with
              ⟨header, rfl, rfl | ⟨part, isPart, within⟩⟩
            · exact .single ⟨rfl, .inl (isPart_of_lastClause rfl)⟩
            · exact .head ⟨rfl, .inr ⟨header, rfl, isPart⟩⟩ within
      case whileLoop cond body orelse =>
        simp only [nesting, Forest.labels, List.mem_cons, List.mem_append] at isLabel
        rcases isLabel with rfl | inBody | inOrelse
        · exact .single ⟨rfl, .inl (by simp [IsPart, parts])⟩
        · exact withinOuter_of_parts rfl (by simp +contextual [parts])
            (outer_of_mem_nestingAll body inBody)
        · exact withinOuter_of_parts rfl (by simp +contextual [parts])
            (outer_of_mem_nestingAll orelse inOrelse)
      case forLoop targets iter body orelse declLocation =>
        simp only [nesting, Forest.labels, List.mem_cons, List.mem_append] at isLabel
        rcases isLabel with rfl | inBody | inOrelse
        · exact .single ⟨rfl, .inl (by simp [IsPart, parts])⟩
        · exact withinOuter_of_parts rfl (by simp +contextual [parts])
            (outer_of_mem_nestingAll body inBody)
        · exact withinOuter_of_parts rfl (by simp +contextual [parts])
            (outer_of_mem_nestingAll orelse inOrelse)
      case withBlock items body =>
        simp only [nesting, Forest.labels_append, Forest.labels_leaves, List.mem_append] at isLabel
        rcases isLabel with isPlaced | inBody
        · exact .single ⟨rfl, .inl (List.mem_append_left _ isPlaced)⟩
        · exact withinOuter_of_parts rfl (by simp +contextual [parts])
            (outer_of_mem_nestingAll body inBody)
      case tryBlock body handlers orelse finalbody =>
        simp only [nesting, Forest.labels_append, List.mem_append] at isLabel
        rcases isLabel with inBody | inHandlers | inOrelse | inFinal
        · exact withinOuter_of_parts rfl (by simp +contextual [parts])
            (outer_of_mem_nestingAll body inBody)
        · rcases outer_of_mem_nestingHandlers handlers inHandlers with ⟨node, isMember, within⟩
          refine .head ⟨rfl, .inl ?_⟩ within
          simp only [IsPart, parts, List.mem_append, or_assoc]
          rcases isMember with isMember | isMember <;> simp only [isMember, or_true, true_or]
        · exact withinOuter_of_parts rfl (by simp +contextual [parts])
            (outer_of_mem_nestingAll orelse inOrelse)
        · exact withinOuter_of_parts rfl (by simp +contextual [parts])
            (outer_of_mem_nestingAll finalbody inFinal)
      all_goals
        rcases List.mem_singleton.1 isLabel with rfl
        exact .refl

theorem outer_of_mem_nestingAll : (nodes : List Node) → label ∈ (nestingAll nodes).labels →
    ∃ node ∈ nodes, node.WithinOuter label
  | [], isLabel => by simp [nestingAll, Forest.labels] at isLabel
  | first :: rest, isLabel => by
      rw [nestingAll, Forest.labels_append] at isLabel
      rcases List.mem_append.1 isLabel with inFirst | later
      · exact ⟨first, List.mem_cons_self, outer_of_mem_nesting first inFirst⟩
      · rcases outer_of_mem_nestingAll rest later with ⟨node, isLater, within⟩
        exact ⟨node, List.mem_cons_of_mem _ isLater, within⟩

theorem outer_of_mem_nestingClauses : (elifs : List (ElifClause Node)) → {last : Forest Node} →
    label ∈ (nestingClauses elifs last).labels →
    (∃ node ∈ elifs.flatMap fun clause => clause.cond :: clause.body, node.WithinOuter label) ∨
      label ∈ last.labels
  | [], last, isLabel => .inr isLabel
  | ⟨cond, body⟩ :: rest, last, isLabel => by
      simp only [nestingClauses, Forest.labels, Forest.labels_append, List.append_nil,
        List.mem_cons, List.mem_append] at isLabel
      rcases isLabel with rfl | inBody | later
      · exact .inl ⟨label, by simp, .refl⟩
      · rcases outer_of_mem_nestingAll body inBody with ⟨node, isMember, within⟩
        exact .inl ⟨node, by simp [isMember], within⟩
      · refine (outer_of_mem_nestingClauses rest later).imp_left ?_
        rintro ⟨node, isMember, within⟩
        exact ⟨node, List.mem_append_right _ isMember, within⟩

theorem outer_of_mem_nestingOrelse : (orelse : Option Node) →
    label ∈ (nestingOrelse orelse).labels →
      ∃ header, orelse = some header ∧
        (label = header ∨ ∃ part ∈ header.parts, part.WithinOuter label)
  | none, isLabel => by simp [nestingOrelse, Forest.labels] at isLabel
  | some ⟨shape, location⟩, isLabel => by
      refine ⟨_, rfl, ?_⟩
      cases shape
      case elseClause body | module body | definition _ _ body _ | classDefinition _ _ body _ =>
        exact outer_nestingClause (List.Subset.refl _) (outer_of_mem_nestingAll body) isLabel
      all_goals simp [nestingOrelse, Forest.labels] at isLabel

theorem outer_of_mem_nestingHandlers : (handlers : List (ExceptHandler Node)) →
    label ∈ (nestingHandlers handlers).labels → ∃ node, (node ∈ handlers.flatMap parts.boundBy ∨
      node ∈ handlers.flatMap fun handler => parts.guards handler ++ handler.body) ∧
        node.WithinOuter label
  | [], isLabel => by simp [nestingHandlers, Forest.labels] at isLabel
  | ⟨some cond, some name, body, location⟩ :: rest, isLabel => by
      simp only [nestingHandlers, Forest.labels, Forest.labels_append, List.nil_append,
        List.mem_append, List.mem_cons] at isLabel
      rcases isLabel with (rfl | inBody) | later
      · exact ⟨_, .inl (by simp [parts.boundBy]), .refl⟩
      · rcases outer_of_mem_nestingAll body inBody with ⟨node, isMember, within⟩
        exact ⟨node, .inr (by simp [isMember]), within⟩
      · rcases outer_of_mem_nestingHandlers rest later with ⟨node, isMember, within⟩
        exact ⟨node, isMember.imp (List.mem_append_right _) (List.mem_append_right _), within⟩
  | ⟨some cond, none, body, _⟩ :: rest, isLabel => by
      simp only [nestingHandlers, Forest.labels_append, List.mem_append] at isLabel
      rcases isLabel with (inCond | inBody) | later
      · exact ⟨cond, .inr (by simp [parts.guards]), outer_of_mem_nesting cond inCond⟩
      · rcases outer_of_mem_nestingAll body inBody with ⟨node, isMember, within⟩
        exact ⟨node, .inr (by simp [isMember]), within⟩
      · rcases outer_of_mem_nestingHandlers rest later with ⟨node, isMember, within⟩
        exact ⟨node, isMember.imp (List.mem_append_right _) (List.mem_append_right _), within⟩
  | ⟨none, _, body, _⟩ :: rest, isLabel => by
      simp only [nestingHandlers, Forest.labels_append, List.mem_append] at isLabel
      rcases isLabel with inBody | later
      · rcases outer_of_mem_nestingAll body inBody with ⟨node, isMember, within⟩
        exact ⟨node, .inr (by simp [isMember]), within⟩
      · rcases outer_of_mem_nestingHandlers rest later with ⟨node, isMember, within⟩
        exact ⟨node, isMember.imp (List.mem_append_right _) (List.mem_append_right _), within⟩

end

theorem within_of_mem_nesting (isLabel : label ∈ node.nesting.labels) : node.Within label :=
  (outer_of_mem_nesting node isLabel).within

end

theorem location_mem_locations (node : Node) : node.location ∈ node.locations := by
  rw [locations_eq]
  exact List.mem_cons_self

theorem key_eq_iff : statement.key = other.key ↔ statement.location = other.location :=
  Location.key_injective.eq_iff

end Node

end FlowAnalysis
