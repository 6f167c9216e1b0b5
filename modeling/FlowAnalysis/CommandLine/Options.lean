/-!
# Arguments of the command line

A command has a file and, around its name, options: `--config` and `--specs` take a value, `-v` only
changes what is logged. Options in front of the name count as well, but those behind it win: the
values of `--specs` behind it replace all of those in front. Whatever does not fit is a usage error.
-/

namespace FlowAnalysis

namespace CommandLine

/-- A report that can be asked for. -/
inductive Command where
  | graph
  | defUse
  /-- The edges of the analysis, as lines or as JSON. -/
  | dataflow (asJson : Bool)
  | specs
deriving DecidableEq, Repr

/-- The command of a given name; only one has a form in JSON. -/
def Command.ofName? (name : String) (asJson : Bool) : Option Command :=
  match name, asJson with
  | "cfg", false => some graph
  | "defuse", false => some defUse
  | "dataflow", _ => some (dataflow asJson)
  | "spec", false => some specs
  | _, _ => none

/-- What an argument says, or an argument together with the one that is its value. -/
inductive Item where
  | verbosity
  | json
  /-- From here on every argument is an operand. -/
  | escape
  | config (path : String)
  | specs (path : String)
  | operand (text : String)
deriving DecidableEq, Repr

namespace Item

/-- Whether an argument is read as an option. A lone hyphen is an operand. -/
def isOption (argument : String) : Bool :=
  argument.startsWith "-" && argument != "-"

/-- Whether an argument asks for more to be logged, once or several times. -/
def isVerbosity (argument : String) : Bool :=
  argument == "--verbose" ||
    match argument.toList with
    | '-' :: 'v' :: rest => rest.all fun letter => letter == 'v'
    | _ => false

/-- An argument in front of its first equals sign, and behind it. -/
def splitValue (argument : String) : String × Option String :=
  let text := argument.toList
  let name := text.takeWhile fun character => character != '='
  (String.ofList name,
    match text.dropWhile fun character => character != '=' with
    | [] => none
    | _ :: value => some (String.ofList value))

/-- The option of a given name with its value, which is not empty. -/
def ofOption? (name value : String) : Option Item :=
  if value.isEmpty then none
  else if name == "--config" then some (config value)
  else if name == "--specs" then some (specs value)
  else none

/-- What arguments say. The value of an option is joined to its name by an equals sign or is the
next argument, which is no option. -/
def ofArguments? : List String → Option (List Item)
  | [] => some []
  | argument :: rest =>
      if argument = "--" then some (escape :: rest.map operand)
      else if !isOption argument then (ofArguments? rest).map (operand argument :: ·)
      else if isVerbosity argument then (ofArguments? rest).map (verbosity :: ·)
      else if argument = "--json" then (ofArguments? rest).map (json :: ·)
      else
        match splitValue argument, rest with
        | (name, some value), rest => do return (← ofOption? name value) :: (← ofArguments? rest)
        | (name, none), value :: rest =>
            if isOption value then none
            else do return (← ofOption? name value) :: (← ofArguments? rest)
        | (_, none), [] => none

end Item

/-- The options around a command. -/
structure Options where
  config : Option String
  specs : List String
deriving DecidableEq, Repr

namespace Options

/-- The options among some items. A configuration is given at most once. -/
def ofItems? (items : List Item) : Option Options :=
  let configs := items.filterMap fun
    | .config path => some path
    | _ => none
  let specs := items.filterMap fun
    | .specs path => some path
    | _ => none
  if configs.length ≤ 1 then some { config := configs.head?, specs } else none

/-- The options of both places, of which the inner ones win. -/
def override (outer inner : Options) : Options :=
  { config := inner.config.or outer.config
    specs := if inner.specs.isEmpty then outer.specs else inner.specs }

end Options

/-- What is asked for. -/
structure Invocation where
  command : Command
  file : String
  options : Options
deriving DecidableEq, Repr

namespace Invocation

/-- Whether an item is the name of the command or a file. -/
def isOperand : Item → Bool
  | .operand _ => true
  | _ => false

/-- What some arguments ask for; none if they do not fit together. -/
def ofArguments? (arguments : List String) : Option Invocation := do
  let items ← Item.ofArguments? arguments
  let front := items.takeWhile fun item => !isOperand item
  let outer ← Options.ofItems? front
  match items.dropWhile fun item => !isOperand item with
  | .operand name :: back =>
      let inner ← Options.ofItems? back
      let operands := back.filterMap fun
        | .operand text => some text
        | _ => none
      let command ← Command.ofName? name (back.contains .json)
      match operands with
      | [file] =>
          if file.isEmpty ∨ front.contains .json ∨ front.contains .escape ∨
              back.count .json > 1 then
            none
          else return { command, file, options := outer.override inner }
      | _ => none
  | _ => none

end Invocation

end CommandLine

end FlowAnalysis
