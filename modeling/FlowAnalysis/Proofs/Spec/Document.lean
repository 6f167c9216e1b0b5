import FlowAnalysis.Proofs.Json.Readable
import FlowAnalysis.Proofs.Json.Reading
import FlowAnalysis.Settings

/-!
# Specification documents are read back

What is written for a specification is read back as that specification, names without records and
omitted members included, since a dictionary has each key once. A document is therefore read back
from its text unless it nests too deep. Reading a document makes specifications of this kind only.
-/

namespace FlowAnalysis

/-! ### Specifications -/

namespace ParamRef

/-- A position is a 64-bit word. -/
def Fits (parameter : ParamRef) : Prop :=
  ∀ index, parameter = .position index → index ≤ largestPosition

end ParamRef

namespace FunctionSpec

def Fits (spec : FunctionSpec) : Prop :=
  ∀ parameter ∈ spec.updates, parameter.Fits

end FunctionSpec

/-- In a module and its submodules, types and submodules have names of their own, and positions are
words. -/
inductive ModuleSpec.WellFormed : ModuleSpec → Prop where
  | intro {functions : List FunctionSpec} {types : List (String × TypeSpec)}
      {modules : List (String × ModuleSpec)} (functionsFit : ∀ function ∈ functions, function.Fits)
      (typeNames : (Dictionary.keys types).Nodup)
      (methodsFit : ∀ entry ∈ types, ∀ method ∈ entry.2.methods, method.Fits)
      (moduleNames : (Dictionary.keys modules).Nodup)
      (inModules : ∀ entry ∈ modules, WellFormed entry.2) : WellFormed ⟨functions, types, modules⟩

/-- The modules of a document have names of their own, and so on inwards. -/
structure Specs.WellFormed (specs : Specs) : Prop where
  names : (Dictionary.keys specs).Nodup
  inModules : ∀ entry ∈ specs, entry.2.WellFormed

/-! ### Reading what was written -/

theorem ParamRef.ofJson?_toJson (parameter : ParamRef) :
    ofJson? parameter.toJson = some parameter := by
  cases parameter <;> rfl

theorem Json.texts?_map_string (texts : List String) :
    (Json.array (texts.map .string)).texts? = some texts :=
  Json.mapM_map_eq_some fun _ _ => rfl

theorem FunctionSpec.ofJson?_toJson (spec : FunctionSpec) : ofJson? spec.toJson = some spec := by
  have updates : Json.listOf? ParamRef.ofJson? (.array (spec.updates.map ParamRef.toJson)) =
      some spec.updates :=
    Json.listOf?_array_map fun parameter _ => parameter.ofJson?_toJson
  have reads := Json.texts?_map_string spec.reads
  rcases spec with ⟨name, updated, reading, returns⟩
  simp only at updates reads
  cases isEmpty : reading.isEmpty with
  | true =>
      rw [List.isEmpty_iff] at isEmpty
      subst isEmpty
      cases returns <;>
        simp [ofJson?, toJson, Json.members?, Json.required?, Json.optional?, Json.text?, updates,
          Json.optionalText?, Json.texts?]
  | false =>
      cases returns <;>
        simp [ofJson?, toJson, isEmpty, Json.members?, Json.required?, Json.optional?, Json.text?,
          updates, reads, Json.optionalText?]

theorem TypeSpec.ofJson?_toJson (type : TypeSpec) : ofJson? type.toJson = some type := by
  have methods : Json.listOf? FunctionSpec.ofJson? (.array (type.methods.map FunctionSpec.toJson)) =
      some type.methods :=
    Json.listOf?_array_map fun method _ => method.ofJson?_toJson
  simp [ofJson?, toJson, Json.record?, Json.optional?, methods]

namespace Json

theorem dictionary?_object {Value : Type} {read : Json → Option Value} {write : Value → Json}
    {entries : Dictionary Value} (names : entries.keys.Nodup)
    (readsBack : ∀ entry ∈ entries, read (write entry.2) = some entry.2) :
    dictionary? read (.object (entries.map fun entry => (entry.1, write entry.2))) =
      some entries := by
  have areEntries : (entries.map fun entry => (entry.1, write entry.2)).mapM
      (fun entry => (read entry.2).map fun item => (entry.1, item)) = some entries := by
    clear names
    induction entries with
    | nil => rfl
    | cons entry rest ih =>
        rcases List.forall_mem_cons.1 readsBack with ⟨reads, readsRest⟩
        simp [List.mapM_cons, reads, ih readsRest]
  simp only [dictionary?, members?, Option.bind_eq_bind, Option.bind_some, areEntries,
    Dictionary.ofEntries_of_nodup names, Option.pure_def]

end Json

namespace ModuleSpec

theorem submodulesToJson_eq_map (modules : List (String × ModuleSpec)) :
    toJson.submodulesToJson modules = modules.map fun entry => (entry.1, entry.2.toJson) := by
  induction modules with
  | nil => rfl
  | cons entry rest ih => simp [toJson.submodulesToJson, ih]

/-- A submodule is written two levels further inside than its module. -/
theorem depth_submodule {functions : List FunctionSpec} {types : List (String × TypeSpec)}
    {modules : List (String × ModuleSpec)} {entry : String × ModuleSpec}
    (isSubmodule : entry ∈ modules) :
    entry.2.toJson.depth + 2 ≤ (toJson ⟨functions, types, modules⟩).depth := by
  have inObject := Json.depth_le_depthMembers
    (List.mem_map_of_mem (f := fun entry => (entry.1, toJson entry.2)) isSubmodule)
  have isMember : ("modules", Json.object (modules.map fun entry => (entry.1, entry.2.toJson))) ∈
      [("functions", Json.array (functions.map FunctionSpec.toJson)),
        ("types", Json.object (types.map fun entry => (entry.1, entry.2.toJson))),
        ("modules", Json.object (modules.map fun entry => (entry.1, entry.2.toJson)))] := by
    simp
  have inModule := Json.depth_le_depthMembers isMember
  rw [Json.depth] at inModule
  rw [toJson, submodulesToJson_eq_map, Json.depth]
  simp only at inObject
  omega

theorem ofJsonWithin?_toJson {module : ModuleSpec} (wellFormed : module.WellFormed) {depth : Nat}
    (shallow : module.toJson.depth ≤ depth) : ofJsonWithin? depth module.toJson = some module := by
  induction wellFormed generalizing depth with
  | @intro functions types modules _ typeNames _ moduleNames _ ih =>
      have positive : 0 < (toJson ⟨functions, types, modules⟩).depth := by
        rw [toJson, Json.depth]
        omega
      cases depth with
      | zero => omega
      | succ depth =>
          have functionsBack :
              Json.listOf? FunctionSpec.ofJson? (.array (functions.map FunctionSpec.toJson)) =
                some functions :=
            Json.listOf?_array_map fun function _ => function.ofJson?_toJson
          have typesBack : Json.dictionary? TypeSpec.ofJson?
              (.object (types.map fun entry => (entry.1, entry.2.toJson))) = some types :=
            Json.dictionary?_object typeNames fun entry _ => entry.2.ofJson?_toJson
          have modulesBack : Json.dictionary? (ofJsonWithin? depth)
              (.object (modules.map fun entry => (entry.1, entry.2.toJson))) = some modules := by
            apply Json.dictionary?_object moduleNames
            intro entry isSubmodule
            have deeper : entry.2.toJson.depth + 2 ≤ depth + 1 :=
              Nat.le_trans (depth_submodule isSubmodule) shallow
            exact ih entry isSubmodule (by omega)
          rw [toJson, submodulesToJson_eq_map]
          simp [ofJsonWithin?, Json.record?, Json.optional?, functionsBack, typesBack, modulesBack]

end ModuleSpec

theorem Specs.ofJson?_toJson {specs : Specs} (wellFormed : specs.WellFormed) :
    ofJson? specs.toJson = some specs := by
  apply Json.dictionary?_object wellFormed.names
  intro entry isModule
  exact ModuleSpec.ofJsonWithin?_toJson (wellFormed.inModules entry isModule) (Nat.le_refl _)

/-! ### Numbers in a document -/

theorem ParamRef.allNumbers_toJson {parameter : ParamRef} (fits : parameter.Fits) :
    parameter.toJson.AllNumbers Json.IsWord := by
  cases parameter with
  | position index =>
      refine .number ⟨index, rfl, ?_, ?_⟩
      · omega
      · exact Int.ofNat_le.2 (fits index rfl)
  | name text => exact .string text

theorem FunctionSpec.allNumbers_toJson {spec : FunctionSpec} (fits : spec.Fits) :
    spec.toJson.AllNumbers Json.IsWord := by
  have updates : (Json.array (spec.updates.map ParamRef.toJson)).AllNumbers Json.IsWord := by
    apply Json.AllNumbers.array
    rw [List.forall_mem_map]
    exact fun parameter isUpdate => ParamRef.allNumbers_toJson (fits parameter isUpdate)
  have reads : (Json.array (spec.reads.map .string)).AllNumbers Json.IsWord := by
    apply Json.AllNumbers.array
    rw [List.forall_mem_map]
    exact fun text _ => .string text
  apply Json.AllNumbers.object
  intro entry isMember
  simp only [List.mem_append, List.mem_cons, List.not_mem_nil, or_false] at isMember
  rcases isMember with ((rfl | rfl) | isRead) | isReturn
  · exact .string _
  · exact updates
  · split at isRead
    · cases isRead
    · rcases List.mem_singleton.1 isRead with rfl
      exact reads
  · split at isReturn
    · rcases List.mem_singleton.1 isReturn with rfl
      exact .string _
    · cases isReturn

theorem TypeSpec.allNumbers_toJson {type : TypeSpec} (fit : ∀ method ∈ type.methods, method.Fits) :
    type.toJson.AllNumbers Json.IsWord := by
  apply Json.AllNumbers.object
  intro entry isMember
  rcases List.mem_singleton.1 isMember with rfl
  apply Json.AllNumbers.array
  rw [List.forall_mem_map]
  exact fun method isMethod => FunctionSpec.allNumbers_toJson (fit method isMethod)

theorem ModuleSpec.WellFormed.allNumbers_toJson {module : ModuleSpec}
    (wellFormed : module.WellFormed) : module.toJson.AllNumbers Json.IsWord := by
  induction wellFormed with
  | intro functionsFit _ methodsFit _ _ ih =>
      rw [toJson, submodulesToJson_eq_map]
      apply Json.AllNumbers.object
      simp only [List.forall_mem_cons]
      refine ⟨.array ?_, .object ?_, .object ?_, nofun⟩ <;> rw [List.forall_mem_map]
      · exact fun function isFunction =>
          FunctionSpec.allNumbers_toJson (functionsFit function isFunction)
      · exact fun entry isType => TypeSpec.allNumbers_toJson (methodsFit entry isType)
      · exact ih

theorem Specs.WellFormed.allNumbers_toJson {specs : Specs} (wellFormed : specs.WellFormed) :
    (Specs.toJson specs).AllNumbers Json.IsWord := by
  apply Json.AllNumbers.object
  rw [List.forall_mem_map]
  exact fun entry isModule => (wellFormed.inModules entry isModule).allNumbers_toJson

/-! ### Members of a document -/

theorem Json.Asked.entries {each : Scheme} {members : List (String × Json)}
    (inMembers : ∀ entry ∈ members, Asked each entry.2) :
    Asked (.entries each) (.object members) := by
  refine .object (fun _ _ => rfl) ?_
  rintro entry isMember _ ⟨⟩
  exact inMembers entry isMember

theorem TypeSpec.asked_toJson (type : TypeSpec) : Json.Asked scheme type.toJson := by
  refine .object ?_ ?_ <;> simp only [List.forall_mem_singleton]
  · rfl
  · rintro _ ⟨⟩
    exact .any _

/-- Every member of what is written for a module counts, however deep the scheme goes. -/
theorem ModuleSpec.asked_toJson (depth : Nat) (module : ModuleSpec) :
    Json.Asked (scheme depth) module.toJson := by
  induction depth generalizing module with
  | zero => exact .any _
  | succ depth ih =>
      rcases module with ⟨functions, types, modules⟩
      rw [toJson, submodulesToJson_eq_map]
      refine .object ?_ ?_
      · simp only [List.forall_mem_cons]
        exact ⟨rfl, rfl, rfl, nofun⟩
      · simp only [List.forall_mem_cons]
        refine ⟨?_, ?_, ?_, nofun⟩ <;> rintro _ ⟨⟩
        · exact .any _
        · apply Json.Asked.entries
          rw [List.forall_mem_map]
          exact fun entry _ => entry.2.asked_toJson
        · apply Json.Asked.entries
          rw [List.forall_mem_map]
          exact fun entry _ => ih entry.2

theorem Specs.asked_toJson (specs : Specs) : Json.Asked scheme specs.toJson := by
  apply Json.Asked.entries
  rw [List.forall_mem_map]
  exact fun entry _ => entry.2.asked_toJson _

/-! ### Documents -/

theorem Specs.parse_eq {specs : Specs} (wellFormed : specs.WellFormed) (origin : String)
    {document : String}
    (isText : Json.parseFor? scheme document =
      if specs.toJson.depth ≤ Json.nestingLimit then some specs.toJson else none) :
    parse origin document =
      if specs.toJson.depth ≤ Json.nestingLimit then .ok specs else .error (.specFormat origin) := by
  rw [parse, parse?, isText]
  by_cases shallow : specs.toJson.depth ≤ Json.nestingLimit
  · simp [shallow, Specs.ofJson?_toJson wellFormed]
  · simp [shallow]

/-- A document is read back from its text, on one line or over several ones and with any blanks
behind it, unless it nests too deep. -/
theorem Specs.parse_text {specs : Specs} (wellFormed : specs.WellFormed) (origin : String) :
    parse origin specs.toJson.compact =
        (if specs.toJson.depth ≤ Json.nestingLimit then .ok specs else .error (.specFormat origin)) ∧
      ∀ blanks : String, Json.AllBlank blanks.toList →
        parse origin (specs.toJson.pretty ++ blanks) =
          if specs.toJson.depth ≤ Json.nestingLimit then .ok specs
          else .error (.specFormat origin) := by
  have exact : (Specs.toJson specs).AllNumbers Json.ReadsBack :=
    wellFormed.allNumbers_toJson.mono fun _ isWord => isWord.readsBack
  constructor
  · apply parse_eq wellFormed
    exact Json.parseFor?_compact exact specs.asked_toJson
  · intro blanks allBlank
    apply parse_eq wellFormed
    exact Json.parseFor?_pretty exact specs.asked_toJson allBlank

/-! ### What is read -/

theorem Json.AllNumbers.of_dictionary? {Item : Type} {described : Number → Prop} {value : Json}
    {read : Json → Option Item} {dictionary : Dictionary Item}
    (all : value.AllNumbers described) (reads : dictionary? read value = some dictionary) :
    dictionary.keys.Nodup ∧ ∀ entry ∈ dictionary,
      ∃ value : Json, value.AllNumbers described ∧ read value = some entry.2 := by
  simp only [dictionary?, Option.bind_eq_bind, Option.bind_eq_some_iff, Option.pure_def,
    Option.some.injEq] at reads
  rcases reads with ⟨members, areMembers, entries, areEntries, rfl⟩
  refine ⟨Dictionary.nodup_keys_ofEntries entries, fun entry isEntry => ?_⟩
  rcases exists_read_of_mapM areEntries entry (Dictionary.mem_of_mem_ofEntries isEntry) with
    ⟨⟨key, value⟩, isMember, isRead⟩
  rcases Option.map_eq_some_iff.1 isRead with ⟨item, isItem, rfl⟩
  exact ⟨value, all.of_members? areMembers _ isMember, isItem⟩

theorem ParamRef.fits_of_ofJson? {value : Json} {parameter : ParamRef}
    (all : value.AllNumbers Json.IsReadable) (reads : ofJson? value = some parameter) :
    parameter.Fits := by
  rintro index rfl
  unfold ofJson? at reads
  split at reads
  · rcases reads with ⟨⟩
    cases all with
    | number isReadable => exact Int.ofNat_le.1 (isReadable _ rfl).2
  · cases reads
  · cases reads

theorem FunctionSpec.fits_of_ofJson? {value : Json} {spec : FunctionSpec}
    (all : value.AllNumbers Json.IsReadable) (reads : ofJson? value = some spec) : spec.Fits := by
  unfold ofJson? at reads
  split at reads
  · rcases reads with ⟨⟩
    exact nofun
  · simp only [Option.bind_eq_bind, Option.bind_eq_some_iff, Option.pure_def,
      Option.some.injEq] at reads
    rcases reads with ⟨members, areMembers, _, -, name, -, found, isFound, updates, areUpdates, _, -,
      reads, -, _, -, returns, -, rfl⟩
    intro parameter isUpdate
    have inMembers := Json.AllNumbers.of_members? all areMembers
    have inUpdates := Json.AllNumbers.of_optional? inMembers isFound .noItems
    rcases inUpdates.of_listOf? areUpdates parameter isUpdate with ⟨inner, inNumbers, isRead⟩
    exact ParamRef.fits_of_ofJson? inNumbers isRead

theorem TypeSpec.fits_of_ofJson? {value : Json} {type : TypeSpec}
    (all : value.AllNumbers Json.IsReadable) (reads : ofJson? value = some type) :
    ∀ method ∈ type.methods, method.Fits := by
  simp only [ofJson?, Option.bind_eq_bind, Option.bind_eq_some_iff, Option.pure_def,
    Option.some.injEq] at reads
  rcases reads with ⟨members, isRecord, found, isFound, methods, areMethods, rfl⟩
  intro method isMethod
  have inMembers := Json.AllNumbers.of_record? all isRecord
  have inMethods := Json.AllNumbers.of_optional? inMembers isFound .noItems
  rcases inMethods.of_listOf? areMethods method isMethod with ⟨inner, inNumbers, isRead⟩
  exact FunctionSpec.fits_of_ofJson? inNumbers isRead

theorem ModuleSpec.wellFormed_of_ofJsonWithin? {depth : Nat} {value : Json} {module : ModuleSpec}
    (all : value.AllNumbers Json.IsReadable) (reads : ofJsonWithin? depth value = some module) :
    module.WellFormed := by
  induction depth generalizing value module with
  | zero => cases reads
  | succ depth ih =>
      simp only [ofJsonWithin?, Option.bind_eq_bind, Option.bind_eq_some_iff, Option.pure_def,
        Option.some.injEq] at reads
      rcases reads with ⟨members, isRecord, foundFunctions, areFoundFunctions, functions,
        areFunctions, foundTypes, areFoundTypes, types, areTypes, foundModules, areFoundModules,
        modules, areModules, rfl⟩
      have inMembers := Json.AllNumbers.of_record? all isRecord
      have inFunctions := Json.AllNumbers.of_optional? inMembers areFoundFunctions .noItems
      have inTypes := Json.AllNumbers.of_optional? inMembers areFoundTypes .noMembers
      have inModules := Json.AllNumbers.of_optional? inMembers areFoundModules .noMembers
      rcases inTypes.of_dictionary? areTypes with ⟨typeNames, areTypes⟩
      rcases inModules.of_dictionary? areModules with ⟨moduleNames, areModules⟩
      refine .intro (fun function isFunction => ?_) typeNames (fun entry isType => ?_) moduleNames
        fun entry isModule => ?_
      · rcases inFunctions.of_listOf? areFunctions function isFunction with
          ⟨inner, inNumbers, isRead⟩
        exact FunctionSpec.fits_of_ofJson? inNumbers isRead
      · rcases areTypes entry isType with ⟨inner, inNumbers, isRead⟩
        exact TypeSpec.fits_of_ofJson? inNumbers isRead
      · rcases areModules entry isModule with ⟨inner, inNumbers, isRead⟩
        exact ih inNumbers isRead

/-- A document that is read has names of their own for all modules and types, and positions that are
words. -/
theorem Specs.wellFormed_of_parse {origin document : String} {specs : Specs}
    (reads : parse origin document = .ok specs) : specs.WellFormed := by
  have reads : parse? document = some specs := by
    rw [parse] at reads
    split at reads
    · cases reads
      assumption
    · cases reads
  rcases Option.bind_eq_some_iff.1 reads with ⟨value, isValue, reads⟩
  have all := (Json.isReadableWithin_of_parseFor? isValue).numbers
  rcases all.of_dictionary? reads with ⟨names, areModules⟩
  refine ⟨names, fun entry isModule => ?_⟩
  rcases areModules entry isModule with ⟨inner, inNumbers, isRead⟩
  exact ModuleSpec.wellFormed_of_ofJsonWithin? inNumbers isRead

end FlowAnalysis
