import FlowAnalysis.CommandLine.Options
import FlowAnalysis.CommandLine.Report
import FlowAnalysis.Python.Module
import FlowAnalysis.Tree.Json

/-!
# Running a command

`CommandLine.run` is the whole program as a function: from the arguments and the files at hand to
what is printed. The program is read from its text, or as a tree from a file whose name ends in
`.json`. The parser of texts is a parameter of `CommandLine.runWith`.
-/

namespace FlowAnalysis

namespace CommandLine

/-- The last segment of a path; empty segments and single dots do not count. -/
def fileName? (path : String) : Option String :=
  match (Text.split '/' path.toList).filter (fun segment => segment != [] && segment != ['.'])
      |>.getLast? with
  | none => none
  | some segment => if segment = ['.', '.'] then none else some (String.ofList segment)

/-- The name of a file in front of its last dot, and the extension behind that dot. A dot that
begins the name separates nothing. -/
def splitExtension (name : String) : String × Option String :=
  let backwards := name.toList.reverse
  let extension := backwards.takeWhile fun character => character != '.'
  match backwards.dropWhile fun character => character != '.' with
  | _ :: stem@(_ :: _) => (String.ofList stem.reverse, some (String.ofList extension.reverse))
  | _ => (name, none)

/-- Why a command prints no report. -/
inductive CommandFailure where
  | usage
  | settings (path : String)
  | unreadable (path : String)
  | notTree (path : String)
  | notProgram (path : String)
  | analysis (cause : Failure)
deriving DecidableEq, Repr

namespace CommandFailure

/-- The number that the program ends with. -/
def code : CommandFailure → Nat
  | usage => 2
  | _ => 1

/-- What went wrong, in words; the wording of a usage error is open. -/
def message : CommandFailure → String
  | usage => "usage"
  | settings path => "failed to load config " ++ path
  | unreadable path => "failed to read " ++ path
  | notTree path => path ++ " is not a serialized syntax tree"
  | notProgram path => "failed to parse " ++ path
  | analysis cause => cause.message

end CommandFailure

/-- The settings that some options describe. -/
def loadSettings (files : Files) (options : Options) : Except CommandFailure Settings := do
  let settings ←
    match options.config with
    | none => pure {}
    | some path => (Settings.load files path).mapError fun _ => .settings path
  return { settings with specFiles := settings.specFiles ++ options.specs }

/-- The program in a file. -/
def loadProgram (statements? : Python.StatementParser) (files : Files) (path : String) :
    Except CommandFailure Node := do
  let text ← (files.read path).mapError fun _ => .unreadable path
  if (fileName? path).bind (fun name => (splitExtension name).2) = some "json" then
    match Node.parse? text with
    | some program => return program
    | none => throw (.notTree path)
  else (Python.moduleTree statements? text (some path)).mapError fun _ => .notProgram path

/-- The lines of the report on a program. Only an analysis reads specifications. -/
def report (files : Files) (invocation : Invocation) (settings : Settings) (program : Node) :
    Except Failure (List String) :=
  let analyzed (analysis : Analysis (List String)) : Except Failure (List String) := do
    analysis.run' (← Analyzer.ofSettings settings files)
  match invocation.command with
  | .graph => Report.graph program
  | .defUse => analyzed (Report.defUse program)
  | .dataflow asJson => analyzed (Report.dataflow asJson program)
  | .specs =>
      let stem := (fileName? invocation.file).map fun name => (splitExtension name).1
      let name := stem.getD "module"
      analyzed (Report.specs name program)

/-- The files with specifications that a command may read. -/
def specPaths (files : Files) (invocation : Invocation) : List String :=
  match loadSettings files invocation.options with
  | .ok settings => settings.specFiles
  | .error _ => []

/-- What a command prints, given a parser, its arguments and the files at hand. -/
def runWith (statements? : Python.StatementParser) (files : Files) (arguments : List String) :
    Except CommandFailure String := do
  match Invocation.ofArguments? arguments with
  | none => throw .usage
  | some invocation =>
      let settings ← loadSettings files invocation.options
      let program ← loadProgram statements? files invocation.file
      let lines ← (report files invocation settings program).mapError .analysis
      return String.join (lines.map fun line => line ++ "\n")

/-- What a command prints, given its arguments and the files at hand. -/
def run (files : Files) (arguments : List String) : Except CommandFailure String :=
  runWith Python.Statement.ofText? files arguments

end CommandLine

end FlowAnalysis
