import FlowAnalysis.Proofs.Json.Readable
import FlowAnalysis.Proofs.Json.Reading
import FlowAnalysis.Proofs.Tree.Numbers

/-!
# Trees are read back from their text

A tree is read back from its text if its positions fit a word and the numbers in its literals are
read back from theirs, unless it nests too deep. A tree that was read does not nest too deep, and
its positions do fit. So it can only be lost in its floating-point values: their texts are the
shortest ones, but a text is not always read as the nearest value.
-/

namespace FlowAnalysis

/-! ### Members of a written tree -/

theorem Location.exists_members (location : Location) :
    ∃ members, location.toJson = .object members ∧ ∀ entry ∈ members, entry.1 ∈
      ["first_line", "first_column", "last_line", "last_column", "path"] := by
  refine ⟨_, rfl, ?_⟩
  cases location.path <;> simp

/-- Every member of a location counts where a tree is read. -/
theorem Location.asked_toJson {scheme : Json.Scheme} (location : Location)
    (isScheme : scheme ∈ Node.scheme.member? "location") : Json.Asked scheme location.toJson := by
  rcases isScheme with ⟨⟩
  have counts : ∀ key ∈ ["first_line", "first_column", "last_line", "last_column", "path"],
      Json.Scheme.member? (.record [("first_line", .any), ("first_column", .any),
        ("last_line", .any), ("last_column", .any), ("path", .any)] false) key = some .any := by
    simp only [List.forall_mem_cons]
    exact ⟨rfl, rfl, rfl, rfl, rfl, List.forall_mem_nil _⟩
  rcases location.exists_members with ⟨members, membersEq, areMembers⟩
  rw [membersEq]
  refine .object (fun entry isMember => ?_) fun entry isMember inner isInner => ?_
  · rw [counts _ (areMembers entry isMember)]
    rfl
  · rw [counts _ (areMembers entry isMember)] at isInner
    rcases isInner with ⟨⟩
    exact .any _

namespace Node

/-- Every member of what is written for a tree counts. -/
theorem asked_toJsonWithin (bound : Nat) (node : Node) :
    Json.Asked scheme (toJsonWithin bound node) := by
  cases bound with
  | zero => exact .null _
  | succ bound =>
      have nodup : (Dictionary.keys (node.shape.toMembers (toJsonWithin bound) ++
          [("location", node.location.toJson)])).Nodup := by
        rw [Shape.keys_toMembers]
        exact node.shape.tag.nodup_keys
      rw [Dictionary.keys, List.map_append] at nodup
      rw [toJsonWithin]
      refine .object (fun entry _ => ?_) fun entry isMember inner isInner => ?_
      · rw [scheme, Json.Scheme.member?]
        split <;> rfl
      · rcases List.mem_append.1 isMember with isField | isLocation
        · have notLocation : entry.1 ≠ "location" := by
            intro isKey
            have apart := (List.nodup_append.1 nodup).2.2
            exact apart entry.1 (List.mem_map_of_mem isField) "location" (by simp) isKey
          have noLookup : (entry.1 == "location") = false := by simpa using notLocation
          simp only [scheme, Json.Scheme.member?, List.lookup_cons, noLookup] at isInner
          rcases isInner with ⟨⟩
          exact .any _
        · rcases List.mem_singleton.1 isLocation with rfl
          exact node.location.asked_toJson isInner

theorem asked_toJson (tree : Node) : Json.Asked scheme tree.toJson :=
  asked_toJsonWithin _ tree

end Node

/-! ### Documents -/

namespace Json

/-- A floating-point value is read back from its text. -/
def KeepsFloat (number : Number) : Prop :=
  ∀ value, number = .float value → ReadsBack number

/-- An integer fits a word, and a floating-point value is read back from its text. -/
def IsFaithful (number : Number) : Prop :=
  IsReadable number ∧ KeepsFloat number

theorem IsFaithful.readsBack {number : Number} (faithful : IsFaithful number) :
    ReadsBack number := by
  rcases faithful with ⟨readable, keeps⟩
  cases number with
  | integer value => exact IsWord.readsBack ⟨value, rfl, readable value rfl⟩
  | float value => exact keeps value rfl

end Json

namespace Node

theorem parse?_eq {tree : Node} (distinct : tree.HasDistinct) {document : String}
    (isText : Json.parseFor? scheme document =
      if tree.toJson.depth ≤ Json.nestingLimit then some tree.toJson else none) :
    parse? document = if tree.toJson.depth ≤ Json.nestingLimit then some tree else none := by
  rw [parse?, isText]
  by_cases shallow : tree.toJson.depth ≤ Json.nestingLimit
  · simp [shallow, ofJson?_toJson distinct]
  · simp [shallow]

/-- A tree is read back from its text, on one line or over several ones and with any blanks behind
it, unless it nests too deep. -/
theorem parse?_text {tree : Node} (distinct : tree.HasDistinct)
    (faithful : tree.HasNumbers Json.IsFaithful) :
    parse? tree.toJson.compact =
        (if tree.toJson.depth ≤ Json.nestingLimit then some tree else none) ∧
      ∀ blanks : String, Json.AllBlank blanks.toList →
        parse? (tree.toJson.pretty ++ blanks) =
          if tree.toJson.depth ≤ Json.nestingLimit then some tree else none := by
  have exact : tree.toJson.AllNumbers Json.ReadsBack :=
    allNumbers_toJson_iff.2 (faithful.mono fun _ => Json.IsFaithful.readsBack)
  constructor
  · exact parse?_eq distinct (Json.parseFor?_compact exact tree.asked_toJson)
  · exact fun blanks allBlank =>
      parse?_eq distinct (Json.parseFor?_pretty exact tree.asked_toJson allBlank)

/-- A tree that was read has positions that fit a word, and it does not nest too deep. -/
theorem readable_of_parse? {document : String} {tree : Node} (reads : parse? document = some tree) :
    tree.HasDistinct ∧ tree.HasNumbers Json.IsReadable ∧
      tree.toJson.depth ≤ Json.nestingLimit := by
  rcases Option.bind_eq_some_iff.1 reads with ⟨value, isValue, isTree⟩
  have readable := Json.isReadableWithin_of_parseFor? isValue
  have covers : value.Covers tree.toJson := covers_toJsonWithin isTree tree.size
  exact ⟨hasDistinct_of_ofJsonWithin? isTree,
    allNumbers_toJson_iff.1 (covers.numbers readable.numbers),
    Nat.le_trans covers.depth readable.shallow⟩

/-- A tree with different keys in its literals is what the reader makes of its record form, and the
reader makes no others. From its text it is read back if its numbers are and if it does not nest too
deep. A tree that was read from a text has positions that fit a word and does not nest too deep, so
it is read again from what is written for it if its floating-point values are. -/
theorem parse?_toJson_roundTrip :
    ((∀ {tree : Node}, tree.HasDistinct → ofJson? tree.toJson = some tree) ∧
      ∀ {value : Json} {tree : Node}, ofJson? value = some tree →
        tree.HasDistinct ∧ ofJson? tree.toJson = some tree) ∧
    (∀ {tree : Node}, tree.HasDistinct → tree.HasNumbers Json.IsFaithful →
      parse? tree.toJson.compact =
          (if tree.toJson.depth ≤ Json.nestingLimit then some tree else none) ∧
        ∀ blanks : String, Json.AllBlank blanks.toList →
          parse? (tree.toJson.pretty ++ blanks) =
            if tree.toJson.depth ≤ Json.nestingLimit then some tree else none) ∧
    ∀ {document : String} {tree : Node}, parse? document = some tree →
      (tree.HasDistinct ∧ tree.HasNumbers Json.IsReadable ∧
        tree.toJson.depth ≤ Json.nestingLimit) ∧
      (tree.HasNumbers Json.KeepsFloat → parse? tree.toJson.compact = some tree) := by
  refine ⟨⟨ofJson?_toJson, fun reads => ?again⟩, parse?_text, fun reads => ?document⟩
  case again =>
    have distinct := hasDistinct_of_ofJsonWithin? reads
    exact ⟨distinct, ofJson?_toJson distinct⟩
  case document =>
    rcases readable_of_parse? reads with ⟨distinct, readable, shallow⟩
    refine ⟨⟨distinct, readable, shallow⟩, fun keeps => ?_⟩
    rw [(parse?_text distinct (readable.and keeps)).1, if_pos shallow]

/-- A literal whose value is an object with lists of numbers. -/
def nestedLiteral : Node :=
  let tenth : Json := .number (.float ⟨0x3fb999999999999a⟩)
  ⟨.literal (.object [("b", .array [.null, .natural 1, tenth]), ("a", .array [])]),
    ⟨1, 0, 1, 9, some "m.py"⟩⟩

/-- A record without the fields that may be missing, in another order, with a member that trees do
not have. -/
def sparseRecord : Json :=
  .object [("note", .null), ("location", Location.toJson ⟨1, 0, 1, 5, none⟩),
    ("type", .string "yield")]

theorem parseFor?_sparseRecord :
    Json.parseFor? scheme sparseRecord.compact = some sparseRecord := by
  have exact : sparseRecord.AllNumbers Json.ReadsBack := by
    simp only [sparseRecord, Location.toJson, Json.natural, Json.allNumbers_object_iff]
    simp only [List.append_nil, List.forall_mem_cons, Json.allNumbers_object_iff,
      Json.allNumbers_number_iff]
    refine ⟨.null, ⟨?_, ?_, ?_, ?_, List.forall_mem_nil _⟩, .string _, List.forall_mem_nil _⟩ <;>
      decide +kernel
  have asked : Json.Asked scheme sparseRecord := by
    refine .object ?_ ?_ <;> simp only [List.forall_mem_cons]
    · exact ⟨rfl, rfl, rfl, List.forall_mem_nil _⟩
    · refine ⟨?_, fun _ => Location.asked_toJson _, ?_, List.forall_mem_nil _⟩ <;> rintro _ ⟨⟩ <;>
        exact .any _
  rw [Json.parseFor?_compact exact asked, if_pos (by decide)]

theorem parse?_toJson_nestedLiteral : parse? nestedLiteral.toJson.compact = some nestedLiteral ∧
    ∃ tree, parse? sparseRecord.compact = some tree ∧ parse? tree.toJson.compact = some tree := by
  constructor
  · have distinct : nestedLiteral.HasDistinct := by
      intro node isNode value isLiteral
      rw [walk_eq] at isNode
      rcases List.mem_singleton.1 isNode with rfl
      rcases isLiteral with ⟨⟩
      apply Json.Distinct.object (by decide)
      simp only [List.forall_mem_cons]
      refine ⟨.array ?_, .array (List.forall_mem_nil _), List.forall_mem_nil _⟩
      simpa using ⟨.null, .number (.integer 1), .number (.float _)⟩
    have readable : nestedLiteral.HasNumbers Json.IsReadable := by
      rw [hasNumbers_iff]
      refine ⟨⟨?_, ?_⟩, List.forall_mem_nil _⟩
      · simp [nestedLiteral, heldLocations, Shape.fields, Field.locations, Location.positions,
          Json.IsReadable, Json.InWord, Json.largestWord]
      · rintro _ ⟨⟩
        simp [Json.natural, Json.IsReadable, Json.InWord, Json.largestWord]
    have keeps : nestedLiteral.HasNumbers Json.KeepsFloat := by
      have tenth : Json.ReadsBack (.float ⟨0x3fb999999999999a⟩) := by decide +kernel
      rw [hasNumbers_iff]
      refine ⟨⟨?_, ?_⟩, List.forall_mem_nil _⟩
      · simp [Json.KeepsFloat]
      · rintro _ ⟨⟩
        simpa [Json.natural, Json.KeepsFloat] using tenth
    have shallow : nestedLiteral.toJson.depth ≤ Json.nestingLimit := by decide +kernel
    rw [(parse?_toJson_roundTrip.2.1 distinct (readable.and keeps)).1, if_pos shallow]
  · have reads : parse? sparseRecord.compact =
        some ⟨.yieldValues [] false, ⟨1, 0, 1, 5, none⟩⟩ := by
      rw [parse?, parseFor?_sparseRecord]
      rfl
    refine ⟨_, reads, (parse?_toJson_roundTrip.2.2 reads).2 ?_⟩
    rw [hasNumbers_iff]
    refine ⟨⟨?_, ?_⟩, List.forall_mem_nil _⟩
    · simp [Json.KeepsFloat]
    · rintro _ ⟨⟩

/-! ### Texts from which a tree is not read back -/

/-- A literal with a floating-point value. -/
def floatLiteral (bits : UInt64) : Node :=
  ⟨.literal (.number (.float ⟨bits⟩)), ⟨1, 0, 1, 18, none⟩⟩

/-- The bits of a literal with a floating-point value. -/
def floatBits? (node : Node) : Option UInt64 :=
  match node.shape with
  | .literal (.number (.float value)) => some value.bits
  | _ => none

/-- A name that is unpacked again and again. -/
def unpackedName : Nat → Node
  | 0 => ⟨.name "x", ⟨1, 0, 1, 1, none⟩⟩
  | depth + 1 => ⟨.starred (unpackedName depth), ⟨1, 0, 1, 1, none⟩⟩

theorem exists_eq_of_mem_walk_unpackedName {depth : Nat} {node : Node}
    (isNode : node ∈ (unpackedName depth).walk) : ∃ inner, node = unpackedName inner := by
  induction depth with
  | zero =>
      rw [walk_eq] at isNode
      exact ⟨0, List.mem_singleton.1 isNode⟩
  | succ depth ih =>
      rw [walk_eq, unpackedName] at isNode
      rcases List.mem_cons.1 isNode with rfl | isInner
      · exact ⟨depth + 1, rfl⟩
      · exact ih (by simpa [children, Shape.children, Shape.fields, Field.subtrees] using isInner)

theorem hasDistinct_unpackedName (depth : Nat) : (unpackedName depth).HasDistinct := by
  intro node isNode value isLiteral
  rcases exists_eq_of_mem_walk_unpackedName isNode with ⟨_ | inner, rfl⟩ <;> cases isLiteral

theorem isFaithful_unpackedName (depth : Nat) :
    (unpackedName depth).HasNumbers Json.IsFaithful := by
  intro node isNode
  rcases exists_eq_of_mem_walk_unpackedName isNode with ⟨_ | inner, rfl⟩ <;>
    refine ⟨?_, nofun⟩ <;>
    simp [unpackedName, heldLocations, Shape.fields, Field.locations, Location.positions,
      Json.IsFaithful, Json.IsReadable, Json.KeepsFloat, Json.InWord, Json.largestWord]

theorem depth_toJsonWithin_unpackedName {depth bound : Nat} (enough : depth < bound) :
    (toJsonWithin bound (unpackedName depth)).depth = depth + 2 := by
  induction depth generalizing bound with
  | zero =>
      cases bound with
      | zero => omega
      | succ bound => rfl
  | succ depth ih =>
      cases bound with
      | zero => omega
      | succ bound =>
          have inner := ih (Nat.lt_of_succ_lt_succ enough)
          simp [unpackedName, toJsonWithin, Shape.toMembers, Shape.tag, Shape.fields, Tag.schema,
            Tag.inRecord, FieldSchema.needs, Field.toJson, Location.toJson, Json.natural,
            Json.depth, Json.depth.depthMembers, inner]
          omega

theorem size_unpackedName (depth : Nat) : (unpackedName depth).size = depth + 1 := by
  induction depth with
  | zero => rw [size_eq]; rfl
  | succ depth ih =>
      have only : (unpackedName (depth + 1)).children = [unpackedName depth] := rfl
      rw [size_eq, only, totalSize_cons, totalSize_nil, ih]
      omega

/-- The value 41.884351922307516 is read from its text as the next larger one, and a tree that nests
too deep is not read from its text at all. -/
theorem loses_float_and_depth :
    ((floatLiteral 4631091515800435606).HasDistinct ∧
      (parse? (floatLiteral 4631091515800435606).toJson.compact).bind floatBits? =
        some 4631091515800435607 ∧
      parse? (floatLiteral 4631091515800435606).toJson.compact ≠
        some (floatLiteral 4631091515800435606)) ∧
    (unpackedName 126).HasDistinct ∧ parse? (unpackedName 126).toJson.compact = none := by
  have slips : (parse? (floatLiteral 4631091515800435606).toJson.compact).bind floatBits? =
      some 4631091515800435607 := by
    decide +kernel
  have deep : ¬ (unpackedName 126).toJson.depth ≤ Json.nestingLimit := by
    rw [toJson, size_unpackedName, depth_toJsonWithin_unpackedName (Nat.lt_succ_self _)]
    decide
  refine ⟨⟨?_, slips, fun same => ?_⟩, hasDistinct_unpackedName 126, ?_⟩
  · intro node isNode value isLiteral
    rw [walk_eq] at isNode
    rcases List.mem_singleton.1 isNode with rfl
    rcases isLiteral with ⟨⟩
    exact .number _
  · rw [same] at slips
    exact absurd slips (by decide)
  · rw [(parse?_text (hasDistinct_unpackedName 126) (isFaithful_unpackedName 126)).1,
      if_neg deep]

end Node

end FlowAnalysis
