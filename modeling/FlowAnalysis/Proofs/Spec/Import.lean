import FlowAnalysis.Proofs.Spec.Document
import FlowAnalysis.Spec.SymbolTable
import Mathlib.Data.List.Induction

/-!
# What imports make of a function

A function of a module is found behind an import of the module, under its name or another one behind
an import of the function, and under its name behind an import of all members. A document can list
functions with one name. An import of all members binds them in order, so the last one stays; the
other forms find the first one. So all forms give one function if the first listing of a name and
the last one are the same (`exists_listings_of_leads`).
-/

namespace FlowAnalysis

/-! ### Dotted paths -/

namespace Text

theorem split_eq_splitOn (separator : Char) (text : List Char) :
    split separator text = text.splitOn separator := by
  induction text with
  | nil => rfl
  | cons character rest ih =>
      rw [split, List.splitOn_cons_eq_if_modifyHead, ih]
      simp only [beq_iff_eq]
      split
      · rfl
      · cases isSplit : List.splitOn separator rest with
        | nil => exact absurd isSplit (List.splitOn_ne_nil separator rest)
        | cons first others => rfl

theorem segments_intercalate {path : List String} (nonempty : path ≠ [])
    (dotFree : ∀ segment ∈ path, '.' ∉ segment.toList) :
    segments (".".intercalate path) = path := by
  have isChar : ".".toList = ['.'] := rfl
  rw [segments, String.toList_intercalate, isChar, split_eq_splitOn, List.splitOn_intercalate]
  · rw [List.map_map]
    conv_rhs => rw [← List.map_id path]
    exact List.map_congr_left fun segment _ => String.ofList_toList
  · exact List.forall_mem_map.2 dotFree
  · simpa using nonempty

theorem segments_eq_singleton {name : String} (dotFree : '.' ∉ name.toList) :
    segments name = [name] := by
  rw [segments, split_eq_splitOn, List.splitOn_eq_singleton dotFree, List.map_singleton,
    String.ofList_toList]

end Text

namespace Dictionary

variable {Value : Type} {dictionary : Dictionary Value} {key : String} {value : Value}

theorem get?_eq_some_of_mem (distinct : dictionary.keys.Nodup)
    (isEntry : (key, value) ∈ dictionary) : dictionary.get? key = some value := by
  induction dictionary with
  | nil => cases isEntry
  | cons entry rest ih =>
      rcases entry with ⟨present, found⟩
      rw [keys, List.map_cons, List.nodup_cons] at distinct
      rw [get?_cons]
      rcases List.mem_cons.1 isEntry with same | later
      · cases same
        rw [if_pos rfl]
      · have differs : key ≠ present := by
          rintro rfl
          exact distinct.1 (List.mem_map.2 ⟨_, later, rfl⟩)
        rw [if_neg differs, ih distinct.2 later]

theorem get?_eq_none_of_notMem (unset : key ∉ dictionary.keys) : dictionary.get? key = none := by
  induction dictionary with
  | nil => rfl
  | cons entry rest ih =>
      rcases entry with ⟨present, found⟩
      rw [keys, List.map_cons, List.mem_cons, not_or] at unset
      rw [get?_cons, if_neg unset.1, ih unset.2]

end Dictionary

/-! ### Modules of a document -/

/-- A path of names leads to a module of a document, from a module to a submodule and so on. -/
inductive Specs.Leads (specs : Specs) : List String → ModuleSpec → Prop where
  | module {name : String} {module : ModuleSpec} (isModule : (name, module) ∈ specs) :
      Leads specs [name] module
  | submodule {path : List String} {name : String} {outer inner : ModuleSpec}
      (leads : Leads specs path outer) (isModule : (name, inner) ∈ outer.modules) :
      Leads specs (path ++ [name]) inner

namespace ModuleSpec

/-- The last function of a given name. -/
def lastFunction? (module : ModuleSpec) (name : String) : Option FunctionSpec :=
  module.functions.reverse.find? fun function => function.name = name

theorem descend?_append (module : ModuleSpec) (path : List String) (name : String) :
    module.descend? (path ++ [name]) =
      (module.descend? path).bind fun inner => inner.submodule? name := by
  induction path generalizing module with
  | nil => simp [descend?]
  | cons first rest ih => simp only [List.cons_append, descend?, ih, Option.bind_assoc]

end ModuleSpec

namespace Specs

variable {specs : Specs} {path : List String} {module : ModuleSpec}

/-- What a path leads to is found by going down. -/
theorem Leads.exists_descend (leads : specs.Leads path module) (wellFormed : specs.WellFormed) :
    module.WellFormed ∧ ∃ first rest outer, path = first :: rest ∧ (first, outer) ∈ specs ∧
      outer.descend? rest = some module := by
  induction leads with
  | @module name module isModule =>
      refine ⟨wellFormed.inModules _ isModule, name, [], module, rfl, isModule, ?_⟩
      rw [ModuleSpec.descend?]
  | @submodule path name outer inner _ isModule ih =>
      rcases ih with ⟨outerFormed, first, rest, top, rfl, isTop, descends⟩
      cases outerFormed with
      | intro _ _ _ moduleNames inModules =>
          refine ⟨inModules _ isModule, first, rest ++ [name], top, rfl, isTop, ?_⟩
          rw [ModuleSpec.descend?_append, descends, Option.bind_some, ModuleSpec.submodule?]
          exact Dictionary.get?_eq_some_of_mem moduleNames isModule

end Specs

namespace SymbolTable

variable {table : SymbolTable} {name path : String} {module : ModuleSpec}

/-- All modules of a document can be imported. -/
def Offers (table : SymbolTable) (specs : Specs) : Prop :=
  ∀ name module, (name, module) ∈ specs → table.specs.get? name = some module

theorem importable?_of_leads {specs : Specs} {segments : List String} (offers : table.Offers specs)
    (wellFormed : specs.WellFormed) (leads : specs.Leads segments module)
    (dotFree : ∀ segment ∈ segments, '.' ∉ segment.toList) :
    table.importable? (".".intercalate segments) = some module := by
  rcases leads.exists_descend wellFormed with ⟨-, first, rest, outer, rfl, isModule, descends⟩
  rw [importable?, Text.segments_intercalate (List.cons_ne_nil _ _) dotFree]
  simp only [offers _ _ isModule, Option.bind_some, descends]

/-! ### Forms of imports -/

/-- The forms in which a function is imported. -/
inductive ImportForm where
  /-- Import of the module under another name. -/
  | module (boundAs : String)
  /-- Import of the function. -/
  | function
  /-- Import of the function under another name. -/
  | functionAs (boundAs : String)
  /-- Import of all members. -/
  | all

namespace ImportForm

/-- The table behind an import of a function of a module. -/
def bind? (table : SymbolTable) (path name : String) : ImportForm → Option SymbolTable
  | .module boundAs => table.importModule? path (some boundAs)
  | .function => table.importFrom? path [{ path := name, boundAs := none }]
  | .functionAs boundAs => table.importFrom? path [{ path := name, boundAs := some boundAs }]
  | .all => table.importFrom? path [{ path := "*", boundAs := none }]

/-- The function that is found behind an import under the name that it has there. -/
def found? (table : SymbolTable) (path name : String) (form : ImportForm) :
    Option ResolvedFunction :=
  (form.bind? table path name).bind fun table =>
    match form with
    | .module boundAs => table.lookupModuleFunction? boundAs name
    | .function => table.lookupFunction? name
    | .functionAs boundAs => table.lookupFunction? boundAs
    | .all => table.lookupFunction? name

/-- Which one of the listings of a name an import finds, of the first one and the last one. -/
def pick (first last : FunctionSpec) : ImportForm → FunctionSpec
  | .all => last
  | _ => first

end ImportForm

/-! ### What is found -/

/-- An import of all members binds a name to the last function of that name. -/
theorem function_importAll_eq : (table.importAll module).functions.get? name =
    ((module.lastFunction? name).map module.resolve).or (table.functions.get? name) := by
  have bound (functions : List FunctionSpec) :
      (functions.foldl (fun bound function => Dictionary.insert bound function.name
          (module.resolve function)) table.functions).get? name =
        ((functions.reverse.find? fun function => function.name = name).map module.resolve).or
          (table.functions.get? name) := by
    induction functions using List.reverseRecOn with
    | nil => rfl
    | append_singleton functions function ih =>
        rw [List.foldl_append, List.foldl_cons, List.foldl_nil, Dictionary.get?_insert, ih,
          List.reverse_append, List.reverse_singleton, List.singleton_append, List.find?_cons]
        by_cases same : function.name = name
        · simp [same]
        · simp [same, Ne.symm same]
  exact bound module.functions

theorem lookupFunction?_of_get? {function : ResolvedFunction}
    (isBound : table.functions.get? name = some function) :
    table.lookupFunction? name = some function := by
  rw [lookupFunction?, isBound]

section

variable (isModule : table.importable? path = some module)

include isModule

theorem found?_module (boundAs : String) :
    (ImportForm.module boundAs).found? table path name =
      (module.function? name).map module.resolve := by
  rw [ImportForm.found?, ImportForm.bind?, importModule?, isModule]
  simp only [Option.map_some, Option.bind_some, lookupModuleFunction?, module?, bindModule,
    Option.getD_some, Dictionary.get?_insert, if_pos, Option.bind_eq_bind, Option.pure_def]
  cases module.function? name <;> rfl

theorem found?_all {function : FunctionSpec} (isLast : module.lastFunction? name = some function) :
    ImportForm.all.found? table path name = some (module.resolve function) := by
  have isBound : (table.importAll module).functions.get? name = some (module.resolve function) := by
    rw [function_importAll_eq, isLast]
    rfl
  rw [ImportForm.found?, ImportForm.bind?, importFrom?, isModule]
  exact lookupFunction?_of_get? isBound

section

variable {first : FunctionSpec} (isFirst : module.function? name = some first)
  (noType : module.type? name = none) (noModule : module.submodule? name = none)
  (dotFree : '.' ∉ name.toList) (noStar : name ≠ "*")

include isFirst noType noModule dotFree noStar

theorem importFrom?_function (boundAs : Option String) :
    table.importFrom? path [{ path := name, boundAs }] =
      some (table.bindFunction (boundAs.getD name) (module.resolve first)) := by
  rw [importFrom?, isModule, Option.map_some, List.foldl_cons, List.foldl_nil]
  simp only [if_neg noStar, importMember, Text.segments_eq_singleton dotFree,
    List.dropLast_singleton, List.getLastD_cons, List.getLastD_nil, ModuleSpec.descend?, noModule,
    noType, isFirst]

theorem found?_function (boundAs : Option String) :
    ((table.importFrom? path [{ path := name, boundAs }]).bind fun table =>
      table.lookupFunction? (boundAs.getD name)) = some (module.resolve first) := by
  rw [importFrom?_function isModule isFirst noType noModule dotFree noStar]
  apply lookupFunction?_of_get?
  rw [bindFunction, Dictionary.get?_insert, if_pos rfl]

/-- All forms but the import of all members give the first function of a name, and that one gives
the last function of the name. -/
theorem found?_eq {last : FunctionSpec} (isLast : module.lastFunction? name = some last)
    (form : ImportForm) :
    form.found? table path name = some (module.resolve (form.pick first last)) := by
  cases form with
  | module boundAs => rw [found?_module isModule, isFirst]; rfl
  | function => exact found?_function isModule isFirst noType noModule dotFree noStar none
  | functionAs boundAs =>
      exact found?_function isModule isFirst noType noModule dotFree noStar (some boundAs)
  | all => exact found?_all isModule isLast

end

end

/-- A function that a module lists, under a name that no type and no submodule of it has, is found
behind all forms of imports, with the type of the module that its listing says it returns. It is the
first listing of the name or, for an import of all members, the last one. -/
theorem exists_listings_of_leads {origin document : String} {specs : Specs}
    (accepted : Specs.parse origin document = .ok specs) (offers : table.Offers specs)
    {segments : List String} (leads : specs.Leads segments module)
    (dotFreePath : ∀ segment ∈ segments, '.' ∉ segment.toList)
    (listed : ∃ function ∈ module.functions, function.name = name)
    (noType : name ∉ Dictionary.keys module.types)
    (noModule : name ∉ Dictionary.keys module.modules)
    (dotFree : '.' ∉ name.toList) (noStar : name ≠ "*") :
    ∃ first last, module.function? name = some first ∧ module.lastFunction? name = some last ∧
      (∀ form : ImportForm, form.found? table (".".intercalate segments) name =
        some
          { spec := form.pick first last
            returnsType := (form.pick first last).returns.bind module.type? }) ∧
      ((∀ form other : ImportForm, form.found? table (".".intercalate segments) name =
          other.found? table (".".intercalate segments) name) ↔ first = last) := by
  have isModule :=
    importable?_of_leads offers (Specs.wellFormed_of_parse accepted) leads dotFreePath
  have hasFirst : (module.function? name).isSome = true := by
    rw [ModuleSpec.function?, List.find?_isSome]
    simpa using listed
  have hasLast : (module.lastFunction? name).isSome = true := by
    rw [ModuleSpec.lastFunction?, List.find?_isSome]
    simpa using listed
  rcases Option.isSome_iff_exists.1 hasFirst with ⟨first, isFirst⟩
  rcases Option.isSome_iff_exists.1 hasLast with ⟨last, isLast⟩
  have found (form : ImportForm) := found?_eq isModule isFirst
    (Dictionary.get?_eq_none_of_notMem noType) (Dictionary.get?_eq_none_of_notMem noModule) dotFree
    noStar isLast form
  refine ⟨first, last, isFirst, isLast, found, ?_⟩
  constructor
  · intro same
    have sameFound := (found .function).symm.trans ((same .function .all).trans (found .all))
    exact congrArg ResolvedFunction.spec (Option.some.inj sameFound)
  · rintro rfl form other
    rw [found form, found other]
    cases form <;> cases other <;> rfl

/-- A module in a module, with a function that returns a value of a type of the module. -/
def shapes : ModuleSpec :=
  { functions :=
      [{ name := "grow", updates := [.position 1] }, { name := "square", returns := some "Shape" }]
    types := [("Shape", { methods := [{ name := "scale", updates := [.position 0] }] })]
    modules := [] }

def drawing : Specs :=
  [("drawing", { functions := [], types := [], modules := [("shapes", shapes)] })]

theorem wellFormed_drawing : drawing.WellFormed := by
  refine ⟨by simp [drawing, Dictionary.keys], ?_⟩
  simp only [drawing, List.forall_mem_singleton]
  refine .intro (by simp) List.nodup_nil (by simp) (by simp [Dictionary.keys]) ?_
  simp only [List.forall_mem_singleton]
  refine .intro ?_ (by simp [Dictionary.keys]) ?_ List.nodup_nil (by simp)
  · simp [FunctionSpec.Fits, ParamRef.Fits, ParamRef.largestPosition]
  · simp [FunctionSpec.Fits, ParamRef.Fits, ParamRef.largestPosition]

theorem offers_ofSpecs_drawing : (ofSpecs drawing).Offers drawing := by
  intro name module isModule
  rcases List.mem_singleton.1 isModule with ⟨⟩
  rfl

/-- All forms find the function that makes squares, and know that it returns shapes. -/
theorem found?_square :
    Specs.parse "s.json" drawing.toJson.compact = .ok drawing ∧
      ∀ form : ImportForm, form.found? (ofSpecs drawing) "drawing.shapes" "square" =
        some
          { spec := { name := "square", returns := some "Shape" }
            returnsType :=
              some { methods := [{ name := "scale", updates := [.position 0] }] } } := by
  have shallow : drawing.toJson.depth ≤ Json.nestingLimit := by decide +kernel
  have accepted : Specs.parse "s.json" drawing.toJson.compact = .ok drawing := by
    rw [(Specs.parse_text wellFormed_drawing "s.json").1, if_pos shallow]
  have outerLeads : drawing.Leads ["drawing"] _ := .module List.mem_cons_self
  have leads : drawing.Leads ["drawing", "shapes"] shapes :=
    outerLeads.submodule List.mem_cons_self
  have listed : ∃ function ∈ shapes.functions, function.name = "square" :=
    ⟨_, List.mem_cons_of_mem _ List.mem_cons_self, rfl⟩
  have isPath : ".".intercalate ["drawing", "shapes"] = "drawing.shapes" := by decide
  refine ⟨accepted, fun form => ?_⟩
  rcases exists_listings_of_leads accepted offers_ofSpecs_drawing leads (by decide) listed
    (by decide) (by decide) (by decide) (by decide) with
    ⟨first, last, isFirst, isLast, found, -⟩
  cases isFirst
  cases isLast
  rw [← isPath, found form]
  cases form <;> rfl

/-- A module that lists a name twice. -/
def overloads : ModuleSpec :=
  { functions :=
      [{ name := "f", updates := [.position 1] }, { name := "f", updates := [.position 2] }]
    types := []
    modules := [] }

theorem wellFormed_overloads : Specs.WellFormed [("m", overloads)] := by
  refine ⟨by simp [Dictionary.keys], ?_⟩
  simp only [List.forall_mem_singleton]
  refine .intro ?_ List.nodup_nil (by simp) List.nodup_nil (by simp)
  simp [FunctionSpec.Fits, ParamRef.Fits, ParamRef.largestPosition]

/-- The first listing of a name is found behind the import of the module or of the function, and the
second one behind the import of all members. -/
theorem found?_overloads :
    Specs.parse "s.json" (Specs.toJson [("m", overloads)]).compact = .ok [("m", overloads)] ∧
      Specs.Leads [("m", overloads)] ["m"] overloads ∧
      ImportForm.found? (ofSpecs [("m", overloads)]) "m" "f" (.module "a") =
        some { spec := { name := "f", updates := [.position 1] } } ∧
      ImportForm.found? (ofSpecs [("m", overloads)]) "m" "f" .function =
        some { spec := { name := "f", updates := [.position 1] } } ∧
      ImportForm.found? (ofSpecs [("m", overloads)]) "m" "f" .all =
        some { spec := { name := "f", updates := [.position 2] } } := by
  have shallow : (Specs.toJson [("m", overloads)]).depth ≤ Json.nestingLimit := by decide +kernel
  refine ⟨?_, .module List.mem_cons_self, by decide +kernel, by decide +kernel, by decide +kernel⟩
  rw [(Specs.parse_text wellFormed_overloads "s.json").1, if_pos shallow]

end SymbolTable

end FlowAnalysis
