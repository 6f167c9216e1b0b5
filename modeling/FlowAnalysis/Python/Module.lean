import FlowAnalysis.Python.Statement.Grammar
import FlowAnalysis.Python.Statement.Tree
import FlowAnalysis.Settings

/-!
# Modules

Reading the text of a module into its tree. What the statements of a text are is left to a parser,
so that `moduleTree` says how they become a tree whatever parser is used; `readModule` uses the one
at hand.
-/

namespace FlowAnalysis

namespace Python

/-- Finds the statements of a text. -/
abbrev StatementParser := List Char → Option (List Statement)

/-- The tree of a module whose statements a parser finds. With a path, the path is part of every
location, and it names the text in a failure. -/
def moduleTree (statements? : StatementParser) (text : String) (path : Option String) :
    Except Failure Node :=
  let source : Source := { text := text.toList, path }
  match statements? source.text with
  | some statements => .ok (moduleNode source statements)
  | none => .error (.parse (path.getD "<input>"))

/-- The tree of a module. -/
def readModule (text : String) (path : Option String) : Except Failure Node :=
  moduleTree Statement.ofText? text path

end Python

end FlowAnalysis
