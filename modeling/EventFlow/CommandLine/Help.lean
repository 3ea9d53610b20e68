import EventFlow.CommandLine.Arguments
import EventFlow.Text.Columns

/-!
# Help pages

What a level of arguments understands, as it is told to the user: a sentence on what it is for,
how it is called, and lists of what can follow, of which a page holds those that are not empty. An
option is shown with the variable that stands in for it and that variable's value, with the value
that stands in for both, and with its choices.
-/

set_option autoImplicit false

namespace EventFlow.CommandLine

/-- The variables of the environment by their names. -/
abbrev Environment := List (String × String)

/-- What there is to say on a level. -/
structure Topic where
  about : String
  /-- How the level is reached. -/
  call : List String
  level : Level
  /-- The commands below the level, and what they are for. -/
  commands : List (String × String)

/-- How a flag is written, with its letter or with as much room. -/
def flagLabel (letter : Option Char) (name : String) : String :=
  match letter with
  | some c => s!"-{c}, --{name}"
  | none => s!"    --{name}"

/-- How an option is written. -/
def Spec.label (o : Spec) : String := flagLabel o.letter o.name ++ " <" ++ o.name.toUpper ++ ">"

/-- What is said of an option. -/
def Spec.note (o : Spec) (environment : Environment) : String :=
  let about := if o.about.isEmpty then [] else [o.about]
  let fromEnvironment := o.variableName.toList.map fun name =>
    "[env: " ++ name ++ "=" ++ (environment.lookup name).getD "" ++ "]"
  let fallback := o.fallback.toList.map fun value => "[default: " ++ value ++ "]"
  let choices :=
    if o.choices.isEmpty then []
    else ["[possible values: " ++ String.intercalate ", " o.choices ++ "]"]
  String.intercalate " " (about ++ fromEnvironment ++ fallback ++ choices)

/-- The options of a level and the flags behind them. -/
def Level.optionRows (level : Level) (environment : Environment) : List (String × String) :=
  let version :=
    if level.hasVersion then [(flagLabel (some 'V') "version", "Print version")] else []
  if level.options.isEmpty then []
  else
    level.options.map (fun o => (o.label, o.note environment)) ++
      (flagLabel (some 'h') "help", "Print help") :: version

/-- How a level is called. -/
def Topic.usage (t : Topic) : String :=
  let options := if t.level.options.isEmpty then [] else ["[OPTIONS]"]
  let command := if t.commands.isEmpty then [] else ["<COMMAND>"]
  String.intercalate " "
    (t.call ++ options ++ t.level.operands.map Operand.label ++ command)

/-- A list of what can follow, under its title. -/
def listing (title : String) (rows : List (String × String)) : List String :=
  if rows.isEmpty then [] else "" :: (title ++ ":") :: Text.columns rows

/-- The lines that tell the user of a level. -/
def Topic.lines (t : Topic) (environment : Environment) : List String :=
  [t.about, "", "Usage: " ++ t.usage] ++
    listing "Commands" t.commands ++
    listing "Arguments" (t.level.operands.map fun o => (o.label, o.about)) ++
    listing "Options" (t.level.optionRows environment)

end EventFlow.CommandLine
