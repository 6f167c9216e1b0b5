import FlowAnalysis.CommandLine.Run

/-!
# The program

Reads the files that the arguments and the settings name, runs the command and prints its report.
-/

namespace FlowAnalysis

namespace CommandLine

/-- The files among some paths that can be read. -/
def readFiles (paths : List String) : IO Files :=
  paths.filterMapM fun (path : String) => do
    try
      let text ← IO.FS.readFile path
      return some (path, text)
    catch _ => return none

/-- The files that a command may read. -/
def filesOf (invocation : Invocation) : IO Files := do
  let named ← readFiles (invocation.file :: invocation.options.config.toList)
  return named ++ (← readFiles (specPaths named invocation))

end CommandLine

end FlowAnalysis

/-- Runs the command that the arguments ask for. -/
def main (arguments : List String) : IO UInt32 := do
  let files ←
    match FlowAnalysis.CommandLine.Invocation.ofArguments? arguments with
    | some invocation => FlowAnalysis.CommandLine.filesOf invocation
    | none => pure []
  match FlowAnalysis.CommandLine.run files arguments with
  | .ok text =>
      IO.print text
      return 0
  | .error cause =>
      IO.eprintln ("Error: " ++ cause.message)
      return UInt32.ofNat cause.code
