import FlowAnalysis.Proofs.Json.Distinct
import FlowAnalysis.Proofs.Tree.Walk
import FlowAnalysis.Tree.Json

/-!
# The record form of a tree is read back

The fields of a record have names of their own, so what a field was written as is found under its
name, and it is read back if the subtrees are. A tree is therefore what the reader makes of its
record form, as long as the values in literals have no repeated keys; and no tree that the reader
makes has others.
-/

namespace FlowAnalysis

theorem Location.ofJson?_toJson (location : Location) :
    ofJson? location.toJson = some location := by
  rcases location with ⟨_, _, _, _, _ | _⟩ <;>
    simp [ofJson?, toJson, Json.record?, Json.required?, Json.optional?, Json.natural,
      Json.natural?, Json.optionalText?]

theorem Json.optionalText?_optionalString (text : Option String) :
    (optionalString text).optionalText? = some text := by
  cases text <;> rfl

theorem ImportName.ofJson?_toJson (name : ImportName) : ofJson? name.toJson = some name := by
  simp [ofJson?, toJson, Json.record?, Json.required?, Json.optional?, Json.text?,
    Json.optionalText?_optionalString]

namespace Field

variable {Subtree : Type} {read : Json → Option Subtree} {write : Subtree → Json}

/-- What a field holds, without its contents. -/
def kind : Field Subtree → FieldKind
  | node _ => .node
  | optionalNode _ => .optionalNode
  | nodes _ => .nodes
  | clauses _ => .clauses
  | handlers _ => .handlers
  | items _ => .items
  | arguments _ => .arguments
  | entries _ => .entries
  | imports _ => .imports
  | text _ => .text
  | optionalText _ => .optionalText
  | texts _ => .texts
  | flag _ => .flag
  | location _ => .location
  | json _ => .json

section

variable (readsNull : read .null = none)

include readsNull

theorem optional?_optionalJson {subtree : Option Subtree}
    (readsBack : ∀ child ∈ subtree, read (write child) = some child) :
    optional? read (optionalJson write subtree) = some subtree := by
  cases subtree with
  | none => rfl
  | some child =>
      have reads := readsBack child rfl
      have notNull : write child ≠ .null := by
        intro isNull
        rw [isNull, readsNull] at reads
        cases reads
      simp only [optionalJson]
      unfold optional?
      split
      · next isNull => exact absurd isNull notNull
      · rw [reads]
        rfl

/-- A field is read back if its subtrees are. -/
theorem ofJson?_toJson {field : Field Subtree}
    (readsBack : ∀ child ∈ field.subtrees, read (write child) = some child)
    (distinct : ∀ value, field = .json value → value.Distinct) :
    ofJson? read field.kind (field.toJson write) = some field := by
  cases field with
  | node value =>
      have reads := readsBack value List.mem_cons_self
      simp [ofJson?, kind, toJson, reads]
  | optionalNode value =>
      have reads : optional? read (optionalJson write value) = some value :=
        optional?_optionalJson readsNull fun child isChild => readsBack child (by
          simpa [subtrees] using isChild)
      simp [ofJson?, kind, toJson, reads]
  | nodes values =>
      have reads : Json.listOf? read (.array (values.map write)) = some values :=
        Json.listOf?_array_map readsBack
      simp [ofJson?, kind, toJson, reads]
  | clauses values =>
      simp only [ofJson?, kind, toJson]
      rw [Json.listOf?_array_map]
      · rfl
      · intro clause isClause
        have reads : read (write clause.cond) = some clause.cond := readsBack _ (by
          simp only [subtrees, List.mem_flatMap, List.mem_cons]
          exact ⟨clause, isClause, .inl rfl⟩)
        have readsBody : Json.listOf? read (.array (clause.body.map write)) = some clause.body :=
          Json.listOf?_array_map fun child isChild => readsBack child (by
            simp only [subtrees, List.mem_flatMap, List.mem_cons]
            exact ⟨clause, isClause, .inr isChild⟩)
        simp [clause?, Json.record?, Json.required?, reads, readsBody]
  | handlers values =>
      simp only [ofJson?, kind, toJson]
      rw [Json.listOf?_array_map]
      · rfl
      · intro handler isHandler
        have reads : optional? read (optionalJson write handler.cond) = some handler.cond :=
          optional?_optionalJson readsNull fun child isChild => readsBack child (by
            simp only [subtrees, List.mem_flatMap, List.mem_append, Option.mem_toList]
            exact ⟨handler, isHandler, .inl isChild⟩)
        have readsBody : Json.listOf? read (.array (handler.body.map write)) = some handler.body :=
          Json.listOf?_array_map fun child isChild => readsBack child (by
            simp only [subtrees, List.mem_flatMap, List.mem_append]
            exact ⟨handler, isHandler, .inr isChild⟩)
        simp [handler?, Json.record?, Json.required?, Json.optional?, reads, readsBody,
          Json.optionalText?_optionalString, Location.ofJson?_toJson]
  | items values =>
      simp only [ofJson?, kind, toJson]
      rw [Json.listOf?_array_map]
      · rfl
      · intro item isItem
        have reads : read (write item.context) = some item.context := readsBack _ (by
          simp only [subtrees, List.mem_flatMap, List.mem_cons]
          exact ⟨item, isItem, .inl rfl⟩)
        have readsTarget : optional? read (optionalJson write item.target) = some item.target :=
          optional?_optionalJson readsNull fun child isChild => readsBack child (by
            simp only [subtrees, List.mem_flatMap, List.mem_cons, Option.mem_toList]
            exact ⟨item, isItem, .inr isChild⟩)
        simp [item?, Json.record?, Json.required?, Json.optional?, reads, readsTarget]
  | arguments values =>
      simp only [ofJson?, kind, toJson]
      rw [Json.listOf?_array_map]
      · rfl
      · intro argument isArgument
        have reads : read (write argument.actual) = some argument.actual :=
          readsBack _ (List.mem_map_of_mem isArgument)
        simp [argument?, Json.record?, Json.required?, Json.optional?, Json.flag?, Json.bool?, reads,
          Json.optionalText?_optionalString]
  | entries values =>
      simp only [ofJson?, kind, toJson]
      rw [Json.listOf?_array_map]
      · rfl
      · intro entry isEntry
        have reads : read (write entry.value) = some entry.value := readsBack _ (by
          simp only [subtrees, List.mem_flatMap, List.mem_append]
          exact ⟨entry, isEntry, .inr List.mem_cons_self⟩)
        have readsKey : optional? read (optionalJson write entry.key) = some entry.key :=
          optional?_optionalJson readsNull fun child isChild => readsBack child (by
            simp only [subtrees, List.mem_flatMap, List.mem_append, Option.mem_toList]
            exact ⟨entry, isEntry, .inl isChild⟩)
        simp [keyValue?, Json.record?, Json.required?, Json.optional?, reads, readsKey]
  | imports names =>
      have reads : Json.listOf? ImportName.ofJson? (.array (names.map ImportName.toJson)) =
          some names :=
        Json.listOf?_array_map fun name _ => name.ofJson?_toJson
      simp [ofJson?, kind, toJson, reads]
  | text value => rfl
  | optionalText value => simp [ofJson?, kind, toJson, Json.optionalText?_optionalString]
  | texts values =>
      have reads : (Json.array (values.map .string)).texts? = some values :=
        Json.mapM_map_eq_some fun _ _ => rfl
      simp [ofJson?, kind, toJson, reads]
  | flag value => rfl
  | location value => simp [ofJson?, kind, toJson, Location.ofJson?_toJson]
  | json value => simp [ofJson?, kind, toJson, (distinct value rfl).merged_eq]

end

/-- A subtree is written no deeper than its field. -/
theorem depth_le_of_mem_subtrees {field : Field Subtree} {child : Subtree}
    (isChild : child ∈ field.subtrees) : (write child).depth ≤ (field.toJson write).depth := by
  have optional : ∀ {subtree : Option Subtree}, child ∈ subtree →
      (write child).depth ≤ (optionalJson write subtree).depth := by
    rintro _ ⟨⟩
    exact Nat.le_refl _
  have listed : ∀ {values : List Subtree}, child ∈ values →
      (write child).depth ≤ Json.depth (.array (values.map write)) := by
    intro values isValue
    have := Json.depth_le_depthItems (List.mem_map_of_mem (f := write) isValue)
    rw [Json.depth]
    omega
  have inRecord : ∀ {Record : Type} {records : List Record} {record : Record}
      {members : Record → List (String × Json)} {entry : String × Json}, record ∈ records →
      entry ∈ members record → (write child).depth ≤ entry.2.depth →
      (write child).depth ≤ Json.depth (.array (records.map fun record => .object (members record))) := by
    intro Record records record members entry isRecord isEntry bounded
    have := Json.depth_le_depthMembers isEntry
    have := Json.depth_le_depthItems
      (List.mem_map_of_mem (f := fun record => Json.object (members record)) isRecord)
    rw [Json.depth] at this
    rw [Json.depth]
    omega
  cases field with
  | node value =>
      rcases List.mem_singleton.1 isChild with rfl
      exact Nat.le_refl _
  | optionalNode value => exact optional (by simpa [subtrees] using isChild)
  | nodes values => exact listed isChild
  | clauses values =>
      rcases List.mem_flatMap.1 isChild with ⟨clause, isClause, isChild⟩
      rcases List.mem_cons.1 isChild with rfl | isChild
      · exact inRecord isClause List.mem_cons_self (Nat.le_refl _)
      · exact inRecord isClause (List.mem_cons_of_mem _ List.mem_cons_self) (listed isChild)
  | handlers values =>
      rcases List.mem_flatMap.1 isChild with ⟨handler, isHandler, isChild⟩
      rcases List.mem_append.1 isChild with isChild | isChild
      · exact inRecord isHandler List.mem_cons_self (optional (by simpa using isChild))
      · have isBody : ("body", Json.array (handler.body.map write)) ∈
            [("cond", optionalJson write handler.cond), ("name", .optionalString handler.name),
              ("body", .array (handler.body.map write)), ("location", handler.location.toJson)] := by
          simp
        exact inRecord isHandler isBody (listed isChild)
  | items values =>
      rcases List.mem_flatMap.1 isChild with ⟨item, isItem, isChild⟩
      rcases List.mem_cons.1 isChild with rfl | isChild
      · exact inRecord isItem List.mem_cons_self (Nat.le_refl _)
      · exact inRecord isItem (List.mem_cons_of_mem _ List.mem_cons_self)
          (optional (by simpa using isChild))
  | arguments values =>
      rcases List.mem_map.1 isChild with ⟨argument, isArgument, rfl⟩
      exact inRecord isArgument List.mem_cons_self (Nat.le_refl _)
  | entries values =>
      rcases List.mem_flatMap.1 isChild with ⟨entry, isEntry, isChild⟩
      rcases List.mem_append.1 isChild with isChild | isChild
      · exact inRecord isEntry List.mem_cons_self (optional (by simpa using isChild))
      · rcases List.mem_singleton.1 isChild with rfl
        exact inRecord isEntry (List.mem_cons_of_mem _ List.mem_cons_self) (Nat.le_refl _)
  | imports | text | optionalText | texts | flag | location | json =>
      exact absurd isChild List.not_mem_nil

/-! ### What is read -/

/-- The subtrees of a field come from a reader, and a value in it has no repeated keys. -/
structure IsRead (read : Json → Option Subtree) (field : Field Subtree) : Prop where
  subtrees : ∀ child ∈ field.subtrees, ∃ value, read value = some child
  json : ∀ value, field = .json value → value.Distinct

theorem exists_read_of_optional? {value : Json} {subtree : Option Subtree}
    (reads : optional? read value = some subtree) :
    ∀ child ∈ subtree, ∃ value, read value = some child := by
  unfold optional? at reads
  split at reads
  · cases reads
    rintro _ ⟨⟩
  · rcases Option.map_eq_some_iff.1 reads with ⟨child, isChild, rfl⟩
    rintro _ ⟨⟩
    exact ⟨_, isChild⟩

theorem isRead_of_ofJson? {kind : FieldKind} {value : Json} {field : Field Subtree}
    (reads : ofJson? read kind value = some field) : field.IsRead read := by
  cases kind with
  | node =>
      rcases Option.map_eq_some_iff.1 reads with ⟨child, isChild, rfl⟩
      refine ⟨?_, by simp⟩
      simpa [subtrees] using ⟨value, isChild⟩
  | optionalNode =>
      rcases Option.map_eq_some_iff.1 reads with ⟨subtree, isRead, rfl⟩
      refine ⟨?_, by simp⟩
      simpa [subtrees] using exists_read_of_optional? isRead
  | nodes =>
      rcases Option.map_eq_some_iff.1 reads with ⟨values, areRead, rfl⟩
      exact ⟨Json.exists_read_of_listOf? areRead, by simp⟩
  | clauses =>
      rcases Option.map_eq_some_iff.1 reads with ⟨values, areRead, rfl⟩
      refine ⟨fun child isChild => ?_, by simp⟩
      rcases List.mem_flatMap.1 isChild with ⟨clause, isClause, isChild⟩
      rcases Json.exists_read_of_listOf? areRead clause isClause with ⟨value, isRead⟩
      simp only [clause?, Option.bind_eq_bind, Option.bind_eq_some_iff, Option.pure_def,
        Option.some.injEq] at isRead
      rcases isRead with ⟨members, -, inner, -, cond, isCond, body, -, children, areChildren, rfl⟩
      rcases List.mem_cons.1 isChild with rfl | isChild
      · exact ⟨inner, isCond⟩
      · exact Json.exists_read_of_listOf? areChildren child isChild
  | handlers =>
      rcases Option.map_eq_some_iff.1 reads with ⟨values, areRead, rfl⟩
      refine ⟨fun child isChild => ?_, by simp⟩
      rcases List.mem_flatMap.1 isChild with ⟨handler, isHandler, isChild⟩
      rcases Json.exists_read_of_listOf? areRead handler isHandler with ⟨value, isRead⟩
      simp only [handler?, Option.bind_eq_bind, Option.bind_eq_some_iff, Option.pure_def,
        Option.some.injEq] at isRead
      rcases isRead with ⟨members, -, inner, -, cond, isCond, name, -, text, -, body, -, children,
        areChildren, location, -, place, -, rfl⟩
      rcases List.mem_append.1 isChild with isChild | isChild
      · exact exists_read_of_optional? isCond child (by simpa using isChild)
      · exact Json.exists_read_of_listOf? areChildren child isChild
  | items =>
      rcases Option.map_eq_some_iff.1 reads with ⟨values, areRead, rfl⟩
      refine ⟨fun child isChild => ?_, by simp⟩
      rcases List.mem_flatMap.1 isChild with ⟨item, isItem, isChild⟩
      rcases Json.exists_read_of_listOf? areRead item isItem with ⟨value, isRead⟩
      simp only [item?, Option.bind_eq_bind, Option.bind_eq_some_iff, Option.pure_def,
        Option.some.injEq] at isRead
      rcases isRead with ⟨members, -, inner, -, context, isContext, target, -, other, isTarget, rfl⟩
      rcases List.mem_cons.1 isChild with rfl | isChild
      · exact ⟨inner, isContext⟩
      · exact exists_read_of_optional? isTarget child (by simpa using isChild)
  | arguments =>
      rcases Option.map_eq_some_iff.1 reads with ⟨values, areRead, rfl⟩
      refine ⟨fun child isChild => ?_, by simp⟩
      rcases List.mem_map.1 isChild with ⟨argument, isArgument, rfl⟩
      rcases Json.exists_read_of_listOf? areRead argument isArgument with ⟨value, isRead⟩
      simp only [argument?, Option.bind_eq_bind, Option.bind_eq_some_iff, Option.pure_def,
        Option.some.injEq] at isRead
      rcases isRead with ⟨members, -, inner, -, actual, isActual, keyword, -, text, -, varargs, -,
        kwargs, -, rfl⟩
      exact ⟨inner, isActual⟩
  | entries =>
      rcases Option.map_eq_some_iff.1 reads with ⟨values, areRead, rfl⟩
      refine ⟨fun child isChild => ?_, by simp⟩
      rcases List.mem_flatMap.1 isChild with ⟨entry, isEntry, isChild⟩
      rcases Json.exists_read_of_listOf? areRead entry isEntry with ⟨value, isRead⟩
      simp only [keyValue?, Option.bind_eq_bind, Option.bind_eq_some_iff, Option.pure_def,
        Option.some.injEq] at isRead
      rcases isRead with ⟨members, -, inner, -, key, isKey, value', -, other, isValue, rfl⟩
      rcases List.mem_append.1 isChild with isChild | isChild
      · exact exists_read_of_optional? isKey child (by simpa using isChild)
      · rcases List.mem_singleton.1 isChild with rfl
        exact ⟨value', isValue⟩
  | imports | text | optionalText | texts | flag | location =>
      rcases Option.map_eq_some_iff.1 reads with ⟨_, -, rfl⟩
      exact ⟨by simp [subtrees], by simp⟩
  | json =>
      cases reads
      refine ⟨by simp [subtrees], ?_⟩
      rintro _ ⟨⟩
      exact Json.distinct_merged value

/-- A missing field has no contents. -/
theorem isRead_of_ofMembers? {members : List (String × Json)} {schema : FieldSchema}
    {field : Field Subtree} (reads : ofMembers? read members schema = some field) :
    field.IsRead read := by
  unfold ofMembers? at reads
  split at reads
  · cases reads
  · split at reads
    · cases reads
    · revert reads
      cases schema.kind <;> rintro ⟨⟩ <;> exact ⟨by simp [subtrees], by simp⟩
  · exact isRead_of_ofJson? reads

end Field

/-! ### Shapes -/

theorem Tag.ofJson?_recordName (tag : Tag) : ofJson? (.string tag.recordName) = some tag := by
  cases tag <;> rfl

theorem Tag.perm_inRecord {Item : Type} (tag : Tag) (items : List Item) :
    (tag.inRecord items).Perm items := by
  fun_cases inRecord tag items with
  | case1 | case2 => exact .cons _ (List.perm_append_singleton _ _)
  | case3 => exact .refl _

/-- The names of the fields of a record differ from each other and from those that every record
has. -/
theorem Tag.nodup_keys (tag : Tag) :
    ("type" :: tag.inRecord (tag.schema.map FieldSchema.key) ++ ["location"]).Nodup := by
  cases tag <;> decide

namespace Shape

variable {Subtree : Type} {read : Json → Option Subtree} {write : Subtree → Json}

theorem fields_of_ofFields? {tag : Tag} {fields : List (Field Subtree)} {shape : Shape Subtree}
    (shapes : ofFields? tag fields = some shape) : shape.fields = fields := by
  unfold ofFields? at shapes
  split at shapes <;> cases shapes <;> rfl

/-- The fields of a shape are of the kinds that its schema lists. -/
theorem forall₂_kinds (shape : Shape Subtree) :
    List.Forall₂ (fun schema field => schema.kind = field.kind) shape.tag.schema shape.fields := by
  cases shape <;> repeat' constructor

theorem keys_toMembers (shape : Shape Subtree) (location : Json) :
    Dictionary.keys (shape.toMembers write ++ [("location", location)]) =
      "type" :: shape.tag.inRecord (shape.tag.schema.map FieldSchema.key) ++ ["location"] := by
  cases shape <;> rfl

theorem mem_toMembers_of_mem_zip {shape : Shape Subtree} {schema : FieldSchema}
    {field : Field Subtree} (together : (schema, field) ∈ shape.tag.schema.zip shape.fields) :
    (schema.key, field.toJson write) ∈ shape.toMembers write := by
  rw [toMembers, ← List.map_uncurry_zip_eq_zipWith]
  exact List.mem_cons_of_mem _
    ((shape.tag.perm_inRecord _).mem_iff.2 (List.mem_map_of_mem together))

theorem exists_mem_toMembers {shape : Shape Subtree} {field : Field Subtree}
    (isField : field ∈ shape.fields) : ∃ key, (key, field.toJson write) ∈ shape.toMembers write := by
  have sameLength := shape.forall₂_kinds.length_eq
  rw [← List.map_snd_zip (Nat.le_of_eq sameLength.symm)] at isField
  rcases List.mem_map.1 isField with ⟨⟨schema, _⟩, together, rfl⟩
  exact ⟨schema.key, mem_toMembers_of_mem_zip together⟩

/-- What holds of texts and of the written fields holds of all members. -/
theorem forall_mem_toMembers {shape : Shape Subtree} {holds : Json → Prop}
    (ofText : ∀ text, holds (.string text))
    (ofField : ∀ field ∈ shape.fields, holds (field.toJson write)) :
    ∀ entry ∈ shape.toMembers write, holds entry.2 := by
  rw [toMembers, ← List.map_uncurry_zip_eq_zipWith, List.forall_mem_cons]
  refine ⟨ofText _, fun entry isEntry => ?_⟩
  rw [(shape.tag.perm_inRecord _).mem_iff] at isEntry
  rcases List.mem_map.1 isEntry with ⟨⟨schema, field⟩, together, rfl⟩
  exact ofField field (List.of_mem_zip together).2

theorem mapM_eq_some_of_forall₂ {Source Item : Type} {read : Source → Option Item}
    {values : List Source} {items : List Item}
    (reads : List.Forall₂ (fun value item => read value = some item) values items) :
    values.mapM read = some items := by
  induction reads with
  | nil => rfl
  | cons isFirst _ ih => simp [List.mapM_cons, isFirst, ih]

/-- A shape is read back if its subtrees are. -/
theorem ofMembers?_toMembers {shape : Shape Subtree} {location : Json}
    (readsNull : read .null = none)
    (readsBack : ∀ child ∈ shape.children, read (write child) = some child)
    (distinct : ∀ value, .json value ∈ shape.fields → value.Distinct) :
    ofMembers? read (shape.toMembers write ++ [("location", location)]) = some shape := by
  have nodup : (Dictionary.keys (shape.toMembers write ++ [("location", location)])).Nodup := by
    rw [keys_toMembers]
    exact shape.tag.nodup_keys
  have isTag : Json.required? (shape.toMembers write ++ [("location", location)]) "type" =
      some (.string shape.tag.recordName) :=
    Json.required?_of_mem nodup List.mem_cons_self
  have areFields : shape.tag.schema.mapM
      (Field.ofMembers? read (shape.toMembers write ++ [("location", location)])) =
        some shape.fields := by
    apply mapM_eq_some_of_forall₂
    rcases List.forall₂_iff_zip.1 shape.forall₂_kinds with ⟨sameLength, sameKind⟩
    refine List.forall₂_iff_zip.2 ⟨sameLength, fun {schema field} together => ?_⟩
    have isField : field ∈ shape.fields := (List.of_mem_zip together).2
    have found : Json.optional? (shape.toMembers write ++ [("location", location)]) schema.key =
        some (some (field.toJson write)) :=
      Json.optional?_of_mem nodup (List.mem_append_left _ (mem_toMembers_of_mem_zip together))
    rw [Field.ofMembers?, found, sameKind together]
    apply Field.ofJson?_toJson readsNull
    · exact fun child isChild => readsBack child (List.mem_flatMap.2 ⟨field, isField, isChild⟩)
    · rintro value rfl
      exact distinct value isField
  simp [ofMembers?, isTag, Tag.ofJson?_recordName, areFields]

end Shape

/-! ### Trees -/

namespace Node

/-- The values in the literals of a tree have no repeated keys. -/
def HasDistinct (tree : Node) : Prop :=
  ∀ node ∈ tree.walk, ∀ value, node.shape = .literal value → value.Distinct

theorem HasDistinct.of_mem_children {node child : Node} (distinct : node.HasDistinct)
    (isChild : child ∈ node.children) : child.HasDistinct :=
  fun inner isInner => distinct inner (walk_subset_of_mem_children isChild isInner)

theorem literal_of_json_mem_fields {Subtree : Type} {shape : Shape Subtree} {value : Json}
    (isField : .json value ∈ shape.fields) : shape = .literal value := by
  cases shape <;> simp_all [Shape.fields]

theorem ofJsonWithin?_null (depth : Nat) : ofJsonWithin? depth .null = none := by
  cases depth <;> rfl

theorem ofJsonWithin?_toJsonWithin {bound depth : Nat} {node : Node} (distinct : node.HasDistinct)
    (small : node.size ≤ bound) (shallow : (toJsonWithin bound node).depth ≤ depth) :
    ofJsonWithin? depth (toJsonWithin bound node) = some node := by
  induction bound generalizing depth node with
  | zero =>
      have := node.size_pos
      omega
  | succ bound ih =>
      rw [toJsonWithin, Json.depth] at shallow
      cases depth with
      | zero => omega
      | succ depth =>
          have readsBack : ∀ child ∈ node.shape.children,
              ofJsonWithin? depth (toJsonWithin bound child) = some child := by
            intro child isChild
            have smaller : child.size < node.size := size_lt_of_mem_children isChild
            apply ih (distinct.of_mem_children isChild) (by omega)
            rcases List.mem_flatMap.1 isChild with ⟨field, isField, inField⟩
            have isMember : ∃ key, (key, field.toJson (toJsonWithin bound)) ∈
                node.shape.toMembers (toJsonWithin bound) :=
              Shape.exists_mem_toMembers isField
            rcases isMember with ⟨key, isMember⟩
            have inRecord := Json.depth_le_depthMembers
              (List.mem_append_left [("location", node.location.toJson)] isMember)
            have inMember : (toJsonWithin bound child).depth ≤
                (field.toJson (toJsonWithin bound)).depth :=
              Field.depth_le_of_mem_subtrees inField
            simp only at inRecord
            omega
          have reads : Shape.ofMembers? (ofJsonWithin? depth)
              (node.shape.toMembers (toJsonWithin bound) ++ [("location", node.location.toJson)]) =
                some node.shape := by
            apply Shape.ofMembers?_toMembers (ofJsonWithin?_null depth) readsBack
            intro value isField
            exact distinct node node.self_mem_walk value (literal_of_json_mem_fields isField)
          have placed : Json.required?
              (node.shape.toMembers (toJsonWithin bound) ++ [("location", node.location.toJson)])
              "location" = some node.location.toJson := by
            apply Json.required?_of_mem _ (List.mem_append_right _ List.mem_cons_self)
            rw [Shape.keys_toMembers]
            exact node.shape.tag.nodup_keys
          rw [toJsonWithin, ofJsonWithin?]
          simp only [Json.members?, reads, placed, Location.ofJson?_toJson, Option.bind_eq_bind,
            Option.bind_some, Option.pure_def]
          cases node
          rfl

theorem hasDistinct_of_ofJsonWithin? {depth : Nat} {value : Json} {tree : Node}
    (reads : ofJsonWithin? depth value = some tree) : tree.HasDistinct := by
  induction depth generalizing value tree with
  | zero => cases reads
  | succ depth ih =>
      simp only [ofJsonWithin?, Shape.ofMembers?, Option.bind_eq_bind, Option.bind_eq_some_iff,
        Option.pure_def, Option.some.injEq] at reads
      rcases reads with ⟨members, -, shape, ⟨_, -, tag, -, fields, areRead, isShape⟩, _, -,
        location, -, rfl⟩
      have areFields := Shape.fields_of_ofFields? isShape
      have isRead : ∀ field ∈ shape.fields, field.IsRead (ofJsonWithin? depth) := by
        rw [areFields]
        intro field isField
        rcases Json.exists_read_of_mapM areRead field isField with ⟨schema, -, reads⟩
        exact Field.isRead_of_ofMembers? reads
      intro node isNode literal isLiteral
      rw [walk_eq] at isNode
      rcases List.mem_cons.1 isNode with rfl | isInner
      · apply (isRead (.json literal) _).json literal rfl
        simp only at isLiteral
        simp [isLiteral, Shape.fields]
      · rcases List.mem_flatMap.1 isInner with ⟨child, isChild, isInner⟩
        rcases List.mem_flatMap.1 isChild with ⟨field, isField, inField⟩
        rcases (isRead field isField).subtrees child inField with ⟨value, reads⟩
        exact ih reads node isInner literal isLiteral

/-- A tree is what the reader makes of its record form. -/
theorem ofJson?_toJson {tree : Node} (distinct : tree.HasDistinct) :
    ofJson? tree.toJson = some tree :=
  ofJsonWithin?_toJsonWithin distinct (Nat.le_refl _) (Nat.le_refl _)

end Node

end FlowAnalysis
