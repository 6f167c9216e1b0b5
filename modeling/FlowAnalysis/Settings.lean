import FlowAnalysis.Spec.Bundled
import FlowAnalysis.Spec.Json

/-!
# Settings

The settings of an analysis say which specifications it draws on and whether the effects of local
functions are inferred. Files are looked up in a dictionary from paths to contents. What can go
wrong, here and in the analysis itself, is one type of causes with one function for the wording.
-/

namespace FlowAnalysis

/-- Why a step of an analysis cannot be done. -/
inductive Failure where
  /-- A control-flow graph exists for modules and functions only. -/
  | unsupportedRoot (typeName : String)
  /-- Postdominance needs a reachable block without successors. -/
  | noExitBlock
  | parse (path : String)
  | specFormat (origin : String)
  | config (path : String)
  | unreadable (path : String)
deriving DecidableEq, Repr

namespace Failure

/-- The wording of a failure. -/
def message : Failure → String
  | unsupportedRoot typeName =>
      "cannot build a control-flow graph from a `" ++ typeName ++ "` node"
  | noExitBlock => "control-flow graph has no exit block"
  | parse path => "failed to parse " ++ path
  | specFormat origin => "invalid spec source " ++ origin
  | config path => "invalid configuration " ++ path
  | unreadable path => "failed to read " ++ path ++ ": No such file or directory (os error 2)"

end Failure

/-- The contents of the files at hand, by path. -/
abbrev Files := Dictionary String

namespace Files

/-- The segments of a path that lead somewhere: all but repeated slashes and steps to the same
directory. The last segment always counts, and so does the root. -/
def steps (path : String) : List (List Char) :=
  let significant (segments : List (List Char)) : List (List Char) :=
    (segments.dropLast.filter fun segment => segment != [] && segment != ['.']) ++
      segments.getLast?.toList
  match Text.split '/' path.toList with
  | [] :: rest => [] :: significant rest
  | segments => significant segments

/-- The contents of a file, which any path with the same steps names. -/
def read (files : Files) (path : String) : Except Failure String :=
  match files.find? fun file => steps file.1 == steps path with
  | some (_, text) => .ok text
  | none => .error (.unreadable path)

end Files

namespace Specs

/-- Reads a document; the origin names it in the failure. -/
def parse (origin document : String) : Except Failure Specs :=
  match parse? document with
  | some specs => .ok specs
  | none => .error (.specFormat origin)

/-- Reads the document in a file. -/
def load (files : Files) (path : String) : Except Failure Specs := do
  parse path (← files.read path)

end Specs

/-- What an analysis draws on. -/
structure Settings where
  includeDefaultSpecs : Bool := true
  /-- Documents that are merged in order; a later one replaces whole modules. -/
  specFiles : List String := []
  /-- Whether the bodies of local functions say what the functions mutate. -/
  inferLocalFunctions : Bool := true
deriving DecidableEq, Repr

namespace Settings

/-- Reads settings; a missing member has its default. -/
def ofJson? (value : Json) : Option Settings := do
  let members ← value.record? ["include_default_specs", "spec_files", "infer_local_functions"]
  let includeDefaultSpecs ←
    ((← Json.optional? members "include_default_specs").getD (.bool true)).bool?
  let specFiles ← ((← Json.optional? members "spec_files").getD (.array [])).texts?
  let inferLocalFunctions ←
    ((← Json.optional? members "infer_local_functions").getD (.bool true)).bool?
  return { includeDefaultSpecs, specFiles, inferLocalFunctions }

/-- Settings are read for their own members. -/
def scheme : Json.Scheme :=
  .record [("include_default_specs", .any), ("spec_files", .any), ("infer_local_functions", .any)]
    false

/-- Reads the settings in a file. -/
def load (files : Files) (path : String) : Except Failure Settings := do
  match (Json.parseFor? scheme (← files.read path)).bind ofJson? with
  | some settings => .ok settings
  | none => .error (.config path)

/-- The modules that the settings start from. -/
def baseSpecs (settings : Settings) : Specs :=
  if settings.includeDefaultSpecs then Spec.bundled else []

/-- The modules to draw on: the bundled ones and then those of the documents in order. -/
def loadSpecs (settings : Settings) (files : Files) : Except Failure Specs :=
  settings.specFiles.foldlM
    (fun (specs : Specs) path => do return Dictionary.extend specs (← Specs.load files path))
    settings.baseSpecs

end Settings

end FlowAnalysis
