import FlowAnalysis.Proofs.Json.Covering
import FlowAnalysis.Proofs.Tree.RoundTrip

/-!
# Numbers in a tree

A tree has numbers in its locations and in its literals, and nowhere else. What is written for a
tree that was read is covered by what it was read from: the members that had been missing are
written as lists and values without contents.
-/

namespace FlowAnalysis

/-! ### Numbers in a tree -/

section

variable {described : Number → Prop}

namespace Location

/-- The lines and columns of a location. -/
def positions (location : Location) : List Nat :=
  [location.firstLine, location.firstColumn, location.lastLine, location.lastColumn]

theorem allNumbers_toJson_iff {location : Location} :
    location.toJson.AllNumbers described ↔
      ∀ position ∈ location.positions, described (.integer position) := by
  rcases location with ⟨_, _, _, _, _ | _⟩ <;> simp [toJson, positions, Json.natural]

end Location

namespace Field

variable {Subtree : Type} {write : Subtree → Json}

/-- The locations in a field outside of its subtrees. -/
def locations : Field Subtree → List Location
  | location value => [value]
  | handlers values => values.map ExceptHandler.location
  | _ => []

theorem allNumbers_optionalJson_iff {subtree : Option Subtree} :
    (optionalJson write subtree).AllNumbers described ↔
      ∀ child ∈ subtree, (write child).AllNumbers described := by
  cases subtree <;> simp [optionalJson]

theorem allNumbers_importName (name : ImportName) : name.toJson.AllNumbers described := by
  simp [ImportName.toJson]

/-- The numbers in a written field are those in its subtrees, its locations and its value. -/
theorem allNumbers_toJson_iff {field : Field Subtree} :
    (field.toJson write).AllNumbers described ↔
      (∀ child ∈ field.subtrees, (write child).AllNumbers described) ∧
        (∀ location ∈ field.locations, location.toJson.AllNumbers described) ∧
          ∀ value, field = .json value → value.AllNumbers described := by
  cases field with
  | clauses | items | entries =>
      simp only [toJson, subtrees, locations, List.forall_mem_flatMap, List.forall_mem_append]
      simp [allNumbers_optionalJson_iff]
  | handlers =>
      simp only [toJson, subtrees, locations, List.forall_mem_flatMap, List.forall_mem_append]
      simp only [Json.allNumbers_array_iff, List.forall_mem_map, Json.allNumbers_object_iff,
        List.forall_mem_cons, allNumbers_optionalJson_iff, Json.allNumbers_optionalString,
        Option.mem_toList]
      constructor
      · intro all
        refine ⟨fun handler isHandler => ?_, fun handler isHandler => ?_, by simp⟩
        · exact ⟨(all handler isHandler).1, (all handler isHandler).2.2.1⟩
        · exact (all handler isHandler).2.2.2.1
      · rintro ⟨inSubtrees, inLocations, -⟩ handler isHandler
        rcases inSubtrees handler isHandler with ⟨inCond, inBody⟩
        exact ⟨inCond, trivial, inBody, inLocations handler isHandler, List.forall_mem_nil _⟩
  | _ => simp [toJson, subtrees, locations, allNumbers_optionalJson_iff, allNumbers_importName]

end Field

namespace Node

/-- The locations of a node: its own and those in its fields. -/
def heldLocations (node : Node) : List Location :=
  node.location :: node.shape.fields.flatMap Field.locations

/-- The positions of a node are as described, and so are the numbers in its value if it is a
literal. -/
structure NumbersAre (described : Number → Prop) (node : Node) : Prop where
  positions : ∀ location ∈ node.heldLocations, ∀ position ∈ location.positions,
    described (.integer position)
  value : ∀ value, node.shape = .literal value → value.AllNumbers described

/-- All numbers in a tree are as described. -/
def HasNumbers (described : Number → Prop) (tree : Node) : Prop :=
  ∀ node ∈ tree.walk, node.NumbersAre described

theorem NumbersAre.mono {described' : Number → Prop} {node : Node}
    (numbers : node.NumbersAre described)
    (weaker : ∀ number, described number → described' number) : node.NumbersAre described' :=
  ⟨fun location isLocation position isPosition =>
    weaker _ (numbers.positions location isLocation position isPosition),
    fun value isLiteral => (numbers.value value isLiteral).mono weaker⟩

theorem HasNumbers.and {described' : Number → Prop} {tree : Node}
    (numbers : tree.HasNumbers described) (numbers' : tree.HasNumbers described') :
    tree.HasNumbers fun number => described number ∧ described' number := by
  intro node isNode
  refine ⟨fun location isLocation position isPosition => ?_, fun value isLiteral => ?_⟩
  · exact ⟨(numbers node isNode).positions location isLocation position isPosition,
      (numbers' node isNode).positions location isLocation position isPosition⟩
  · exact ((numbers node isNode).value value isLiteral).and
      ((numbers' node isNode).value value isLiteral)

theorem HasNumbers.mono {described' : Number → Prop} {tree : Node}
    (numbers : tree.HasNumbers described)
    (weaker : ∀ number, described number → described' number) : tree.HasNumbers described' :=
  fun node isNode => (numbers node isNode).mono weaker

theorem hasNumbers_iff {node : Node} :
    node.HasNumbers described ↔
      node.NumbersAre described ∧ ∀ child ∈ node.children, child.HasNumbers described := by
  rw [HasNumbers, walk_eq, List.forall_mem_cons, List.forall_mem_flatMap]
  rfl

theorem json_mem_fields_iff {node : Node} {value : Json} :
    .json value ∈ node.shape.fields ↔ node.shape = .literal value := by
  constructor
  · exact literal_of_json_mem_fields
  · intro isLiteral
    simp [isLiteral, Shape.fields]

/-- The numbers in the members of a record are those of the node and of its children. -/
theorem allNumbers_record_iff {node : Node} {write : Node → Json} :
    (Json.object (node.shape.toMembers write ++ [("location", node.location.toJson)])).AllNumbers
        described ↔
      node.NumbersAre described ∧ ∀ child ∈ node.children, (write child).AllNumbers described := by
  have members : (∀ entry ∈ node.shape.toMembers write, entry.2.AllNumbers described) ↔
      ∀ field ∈ node.shape.fields, (field.toJson write).AllNumbers described := by
    constructor
    · intro all field isField
      rcases Shape.exists_mem_toMembers isField with ⟨key, isMember⟩
      exact all _ isMember
    · exact Shape.forall_mem_toMembers Json.allNumbers_string
  rw [Json.allNumbers_object_iff, List.forall_mem_append, List.forall_mem_singleton, members]
  simp only [Field.allNumbers_toJson_iff, Location.allNumbers_toJson_iff]
  constructor
  · rintro ⟨fields, location⟩
    refine ⟨⟨?_, fun value isLiteral => ?_⟩, fun child isChild => ?_⟩
    · rw [heldLocations, List.forall_mem_cons, List.forall_mem_flatMap]
      exact ⟨location, fun field isField => (fields field isField).2.1⟩
    · exact (fields _ (json_mem_fields_iff.2 isLiteral)).2.2 value rfl
    · rcases List.mem_flatMap.1 isChild with ⟨field, isField, inField⟩
      exact (fields field isField).1 child inField
  · rintro ⟨⟨positions, value⟩, children⟩
    rw [heldLocations, List.forall_mem_cons, List.forall_mem_flatMap] at positions
    refine ⟨fun field isField => ⟨fun child inField => ?_, positions.2 field isField, ?_⟩,
      positions.1⟩
    · exact children child (List.mem_flatMap.2 ⟨field, isField, inField⟩)
    · rintro literal rfl
      exact value literal (json_mem_fields_iff.1 isField)

theorem allNumbers_toJsonWithin_iff {bound : Nat} {node : Node} (small : node.size ≤ bound) :
    (toJsonWithin bound node).AllNumbers described ↔ node.HasNumbers described := by
  induction bound generalizing node with
  | zero =>
      have := node.size_pos
      omega
  | succ bound ih =>
      rw [toJsonWithin, allNumbers_record_iff, hasNumbers_iff]
      refine and_congr_right fun _ => forall₂_congr fun child isChild => ?_
      have smaller := size_lt_of_mem_children isChild
      exact ih (by omega)

/-- The numbers in a written tree are those in the tree. -/
theorem allNumbers_toJson_iff {tree : Node} :
    tree.toJson.AllNumbers described ↔ tree.HasNumbers described :=
  allNumbers_toJsonWithin_iff (Nat.le_refl _)

end Node

end

/-! ### What is written for a tree that was read -/

theorem Json.eq_natural_of_natural? {value : Json} {number : Nat}
    (isNatural : value.natural? = some number) : value = .natural number := by
  unfold natural? at isNatural
  split at isNatural
  · rcases isNatural with ⟨⟩
    rfl
  · cases isNatural

theorem Location.covers_toJson {value : Json} {location : Location}
    (reads : ofJson? value = some location) : value.Covers location.toJson := by
  simp only [ofJson?, Option.bind_eq_bind, Option.bind_eq_some_iff, Option.pure_def,
    Option.some.injEq] at reads
  rcases reads with ⟨members, isRecord, _, isFirstLine, _, firstLine, _, isFirstColumn, _,
    firstColumn, _, isLastLine, _, lastLine, _, isLastColumn, _, lastColumn, _, -, path, -, rfl⟩
  apply Json.covers_of_record? isRecord
  rw [List.forall_mem_append]
  constructor
  · simp only [List.forall_mem_cons]
    refine ⟨?_, ?_, ?_, ?_, List.forall_mem_nil _⟩
    · exact Json.inRecord_of_required? isFirstLine
        (Json.eq_natural_of_natural? firstLine ▸ .refl _)
    · exact Json.inRecord_of_required? isFirstColumn
        (Json.eq_natural_of_natural? firstColumn ▸ .refl _)
    · exact Json.inRecord_of_required? isLastLine
        (Json.eq_natural_of_natural? lastLine ▸ .refl _)
    · exact Json.inRecord_of_required? isLastColumn
        (Json.eq_natural_of_natural? lastColumn ▸ .refl _)
  · cases path with
    | none => exact List.forall_mem_nil _
    | some path =>
        simp only [List.forall_mem_singleton]
        exact .inl (Json.null_covers_string path)

theorem ImportName.covers_toJson {value : Json} {name : ImportName}
    (reads : ofJson? value = some name) : value.Covers name.toJson := by
  simp only [ofJson?, Option.bind_eq_bind, Option.bind_eq_some_iff, Option.pure_def,
    Option.some.injEq] at reads
  rcases reads with ⟨members, isRecord, _, -, path, -, _, -, boundAs, -, rfl⟩
  apply Json.covers_of_record? isRecord
  simp only [List.forall_mem_cons]
  exact ⟨.inl (Json.null_covers_string path), .inl (Json.null_covers_optionalString boundAs),
    List.forall_mem_nil _⟩

namespace Field

variable {Subtree : Type} {read : Json → Option Subtree} {write : Subtree → Json}

section

variable (covers : ∀ {value child}, read value = some child → value.Covers (write child))

include covers

theorem covers_optionalJson {value : Json} {subtree : Option Subtree}
    (reads : optional? read value = some subtree) : value.Covers (optionalJson write subtree) := by
  unfold optional? at reads
  split at reads
  · cases reads
    exact .refl _
  · rcases Option.map_eq_some_iff.1 reads with ⟨child, isChild, rfl⟩
    exact covers isChild

/-- A written field is covered by what the field was read from, if its subtrees are. -/
theorem covers_toJson {kind : FieldKind} {value : Json} {field : Field Subtree}
    (reads : ofJson? read kind value = some field) : value.Covers (field.toJson write) := by
  cases kind with
  | node =>
      rcases Option.map_eq_some_iff.1 reads with ⟨child, isChild, rfl⟩
      exact covers isChild
  | optionalNode =>
      rcases Option.map_eq_some_iff.1 reads with ⟨subtree, isRead, rfl⟩
      exact covers_optionalJson covers isRead
  | nodes =>
      rcases Option.map_eq_some_iff.1 reads with ⟨values, areRead, rfl⟩
      exact Json.covers_of_listOf? covers areRead
  | clauses =>
      rcases Option.map_eq_some_iff.1 reads with ⟨values, areRead, rfl⟩
      refine Json.covers_of_listOf? (fun {inner clause} reads => ?_) areRead
      simp only [clause?, Option.bind_eq_bind, Option.bind_eq_some_iff, Option.pure_def,
        Option.some.injEq] at reads
      rcases reads with ⟨members, isRecord, _, isCond, cond, readsCond, _, isBody, body, readsBody,
        rfl⟩
      apply Json.covers_of_record? isRecord
      simp only [List.forall_mem_cons]
      refine ⟨Json.inRecord_of_required? isCond (covers readsCond), ?_, List.forall_mem_nil _⟩
      exact Json.inRecord_of_required? isBody (Json.covers_of_listOf? covers readsBody)
  | handlers =>
      rcases Option.map_eq_some_iff.1 reads with ⟨values, areRead, rfl⟩
      refine Json.covers_of_listOf? (fun {inner handler} reads => ?_) areRead
      simp only [handler?, Option.bind_eq_bind, Option.bind_eq_some_iff, Option.pure_def,
        Option.some.injEq] at reads
      rcases reads with ⟨members, isRecord, _, isCond, cond, readsCond, _, -, name, -, _, isBody,
        body, readsBody, _, isLocation, location, readsLocation, rfl⟩
      apply Json.covers_of_record? isRecord
      simp only [List.forall_mem_cons]
      refine ⟨?_, .inl (Json.null_covers_optionalString name), ?_, ?_, List.forall_mem_nil _⟩
      · exact Json.inRecord_of_optional? isCond (covers_optionalJson covers readsCond)
      · exact Json.inRecord_of_required? isBody (Json.covers_of_listOf? covers readsBody)
      · exact Json.inRecord_of_required? isLocation (Location.covers_toJson readsLocation)
  | items =>
      rcases Option.map_eq_some_iff.1 reads with ⟨values, areRead, rfl⟩
      refine Json.covers_of_listOf? (fun {inner item} reads => ?_) areRead
      simp only [item?, Option.bind_eq_bind, Option.bind_eq_some_iff, Option.pure_def,
        Option.some.injEq] at reads
      rcases reads with ⟨members, isRecord, _, isContext, context, readsContext, _, isTarget,
        target, readsTarget, rfl⟩
      apply Json.covers_of_record? isRecord
      simp only [List.forall_mem_cons]
      refine ⟨Json.inRecord_of_required? isContext (covers readsContext), ?_, List.forall_mem_nil _⟩
      exact Json.inRecord_of_optional? isTarget (covers_optionalJson covers readsTarget)
  | arguments =>
      rcases Option.map_eq_some_iff.1 reads with ⟨values, areRead, rfl⟩
      refine Json.covers_of_listOf? (fun {inner argument} reads => ?_) areRead
      simp only [argument?, Option.bind_eq_bind, Option.bind_eq_some_iff, Option.pure_def,
        Option.some.injEq] at reads
      rcases reads with ⟨members, isRecord, _, isActual, actual, readsActual, _, -, keyword, -,
        varargs, -, kwargs, -, rfl⟩
      apply Json.covers_of_record? isRecord
      simp only [List.forall_mem_cons]
      exact ⟨Json.inRecord_of_required? isActual (covers readsActual),
        .inl (Json.null_covers_optionalString keyword), .inl (Json.null_covers_bool varargs),
        .inl (Json.null_covers_bool kwargs), List.forall_mem_nil _⟩
  | entries =>
      rcases Option.map_eq_some_iff.1 reads with ⟨values, areRead, rfl⟩
      refine Json.covers_of_listOf? (fun {inner entry} reads => ?_) areRead
      simp only [keyValue?, Option.bind_eq_bind, Option.bind_eq_some_iff, Option.pure_def,
        Option.some.injEq] at reads
      rcases reads with ⟨members, isRecord, _, isKey, key, readsKey, _, isValue, value, readsValue,
        rfl⟩
      apply Json.covers_of_record? isRecord
      simp only [List.forall_mem_cons]
      refine ⟨Json.inRecord_of_optional? isKey (covers_optionalJson covers readsKey), ?_,
        List.forall_mem_nil _⟩
      exact Json.inRecord_of_required? isValue (covers readsValue)
  | imports =>
      rcases Option.map_eq_some_iff.1 reads with ⟨names, areRead, rfl⟩
      exact Json.covers_of_listOf? ImportName.covers_toJson areRead
  | text =>
      rcases Option.map_eq_some_iff.1 reads with ⟨text, -, rfl⟩
      exact (Json.null_covers_string text).of_null
  | optionalText =>
      rcases Option.map_eq_some_iff.1 reads with ⟨text, -, rfl⟩
      exact (Json.null_covers_optionalString text).of_null
  | texts =>
      rcases Option.map_eq_some_iff.1 reads with ⟨texts, areRead, rfl⟩
      have areTexts : Json.listOf? Json.text? value = some texts := by
        cases value <;> exact areRead
      exact Json.covers_of_listOf? (fun _ => (Json.null_covers_string _).of_null) areTexts
  | flag =>
      rcases Option.map_eq_some_iff.1 reads with ⟨flag, -, rfl⟩
      exact (Json.null_covers_bool flag).of_null
  | location =>
      rcases Option.map_eq_some_iff.1 reads with ⟨location, isLocation, rfl⟩
      exact Location.covers_toJson isLocation
  | json =>
      cases reads
      exact Json.covers_merged value

/-- What is written for a field of a record is covered by a member of the record, or it is empty. -/
theorem inRecord_toJson {members : List (String × Json)} {schema : FieldSchema}
    {field : Field Subtree} (reads : ofMembers? read members schema = some field) :
    Json.InRecord members (field.toJson write) ∨ field.toJson write = .array [] := by
  unfold ofMembers? at reads
  split at reads
  · cases reads
  · split at reads
    · cases reads
    · revert reads
      cases schema.kind <;> rintro ⟨⟩
      case optionalNode => exact .inl (.inl (.refl _))
      case optionalText => exact .inl (.inl (Json.null_covers_optionalString none))
      case flag => exact .inl (.inl (Json.null_covers_bool false))
      all_goals exact .inr rfl
  · next isFound => exact .inl (.inr ⟨_, Json.mem_of_optional? isFound, covers_toJson covers reads⟩)

end

end Field

namespace Node

/-- What is written for a tree is covered by what the tree was read from. -/
theorem covers_toJsonWithin {depth : Nat} {value : Json} {tree : Node}
    (reads : ofJsonWithin? depth value = some tree) (bound : Nat) :
    value.Covers (toJsonWithin bound tree) := by
  induction bound generalizing depth value tree with
  | zero => exact (Json.Covers.refl .null).of_null
  | succ bound ih =>
      cases depth with
      | zero => cases reads
      | succ depth =>
          simp only [ofJsonWithin?, Shape.ofMembers?, Option.bind_eq_bind, Option.bind_eq_some_iff,
            Option.pure_def, Option.some.injEq] at reads
          rcases reads with ⟨members, areMembers, shape, ⟨_, -, tag, -, fields, areRead, isShape⟩,
            place, isPlace, location, isLocation, rfl⟩
          have areFields := Shape.fields_of_ofFields? isShape
          have isRecord : value.record? [] = some members := by
            cases value <;> rcases areMembers with ⟨⟩
            rfl
          have coversLocation := Location.covers_toJson isLocation
          -- A list that was missing is written as an empty one, which is no deeper than a location.
          have coversEmpty : place.Covers (.array []) := by
            refine ⟨Nat.le_trans ?_ coversLocation.depth, fun _ => .noItems⟩
            rw [Location.toJson, Json.depth, Json.depth]
            exact Nat.le_add_right 1 _
          rw [toJsonWithin]
          apply Json.covers_of_record? isRecord
          rw [List.forall_mem_append, List.forall_mem_singleton]
          refine ⟨Shape.forall_mem_toMembers (fun text => .inl (Json.null_covers_string text)) ?_,
            Json.inRecord_of_required? isPlace coversLocation⟩
          intro field isField
          simp only at isField
          rw [areFields] at isField
          rcases Json.exists_read_of_mapM areRead field isField with ⟨schema, -, readsField⟩
          have covers : ∀ {value child}, ofJsonWithin? depth value = some child →
              value.Covers (toJsonWithin bound child) := fun reads => ih reads
          rcases Field.inRecord_toJson covers readsField with inRecord | isEmpty
          · exact inRecord
          · rw [isEmpty]
            exact Json.inRecord_of_required? isPlace coversEmpty

end Node

end FlowAnalysis
