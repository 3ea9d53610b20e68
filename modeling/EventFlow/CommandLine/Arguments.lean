/-!
# Arguments

Arguments are options and operands. An option has a long name after two hyphens, with its value
after an equals sign or as the next argument, and may have a letter after one hyphen, with its
value right behind it, behind an equals sign, or as the next argument. Two hyphens alone end the
options. A value that is an argument of its own does not start with a hyphen, unless it is nothing
else.
-/

set_option autoImplicit false

namespace EventFlow.CommandLine

/-- Why arguments lead to no command. -/
inductive Halt where
  /-- The arguments are not understood. -/
  | usage
  | help
  | version
deriving DecidableEq

/-- An option that takes a value. -/
structure Spec where
  name : String
  letter : Option Char
  /-- What it is for. -/
  about : String
  accepts : String → Bool
  /-- The variable of the environment that stands in for it. -/
  variableName : Option String
  /-- The value that stands in for it. -/
  fallback : Option String
  /-- Its values, where there are only a few. -/
  choices : List String

/-- An operand. -/
structure Operand where
  /-- Its name, between the brackets that say whether it may be left out. -/
  label : String
  about : String
deriving DecidableEq

/-- What is understood up to a command's name, or after it. -/
structure Level where
  options : List Spec
  operands : List Operand
  hasVersion : Bool

/-- The values of options by their names, and the operands. -/
structure Given where
  options : List (String × String)
  /-- The last option that took the next argument as its value, until the value is looked at. -/
  late : Option (String × String)
  operands : List String
deriving DecidableEq

namespace Given

/-- Nothing at all. -/
def nothing : Given := ⟨[], none, []⟩

/-- The value of an option. -/
def value? (g : Given) (name : String) : Option String := g.options.lookup name

/-- With the value of an option, which is given once at most and has to be acceptable. -/
def withValue (option : Spec) (value : String) (g : Given) : Except Halt Given :=
  if (g.value? option.name).isSome || !option.accepts value then .error .usage
  else .ok { g with options := g.options ++ [(option.name, value)] }

/-- With more operands. -/
def withOperands (operands : List String) (g : Given) : Given :=
  { g with operands := g.operands ++ operands }

end Given

/-- What was given, with the value that was not looked at yet. -/
def Level.settled (level : Level) (g : Given) : Except Halt Given :=
  match g.late with
  | none => .ok g
  | some (name, value) =>
    match level.options.find? (·.name == name) with
    | some option => Given.withValue option value { g with late := none }
    | none => .error .usage

/-- What one argument says. -/
inductive Word where
  | operand (text : String)
  /-- Only operands follow. -/
  | escape
  | option (option : Spec) (value : Option String)
  | halt (h : Halt)

/-- What an argument with two hyphens says, given what is after them. -/
def Level.long (level : Level) (s : List Char) : Word :=
  let name := String.ofList (s.takeWhile (· != '='))
  let value := match s.dropWhile (· != '=') with
    | '=' :: value => some (String.ofList value)
    | _ => none
  match level.options.find? (·.name == name) with
  | some option => .option option value
  | none =>
    if value.isNone && name == "help" then .halt .help
    else if value.isNone && name == "version" && level.hasVersion then .halt .version
    else .halt .usage

/-- What an argument with one hyphen says, given the letter after it and what is behind that. -/
def Level.short (level : Level) (letter : Char) (s : List Char) : Word :=
  match level.options.find? (·.letter == some letter) with
  | some option =>
    match s with
    | [] => .option option none
    | '=' :: value => .option option (some (String.ofList value))
    | value => .option option (some (String.ofList value))
  | none =>
    if letter == 'h' then .halt .help
    else if letter == 'V' && level.hasVersion then .halt .version
    else .halt .usage

/-- What an argument says. -/
def Level.word (level : Level) (argument : String) : Word :=
  match argument.toList with
  | ['-', '-'] => .escape
  | '-' :: '-' :: s => level.long s
  | '-' :: letter :: s => level.short letter s
  | _ => .operand argument

/-- Whether an argument can be the value of the option before it. -/
def isValue (argument : String) : Bool :=
  match argument.toList with
  | '-' :: _ :: _ => false
  | _ => true

/-- What arguments say, up to the first operand for which there is no room; the arguments from
there on are left. A value that is an argument of its own is looked at when the next option is
met, so none is left that stands in front of another. -/
def Level.scan (level : Level) : List String → Given → Except Halt (Given × List String)
  | [], g => .ok (g, [])
  | argument :: rest, g =>
    match level.word argument with
    | .halt h => do
      let _ ← level.settled g
      .error h
    | .escape =>
      if g.operands.length + rest.length ≤ level.operands.length then
        .ok (g.withOperands rest, [])
      else .error .usage
    | .operand text =>
      if g.operands.length < level.operands.length then level.scan rest (g.withOperands [text])
      else .ok (g, argument :: rest)
    | .option option (some value) => do
      let g ← level.settled g
      let g ← g.withValue option value
      level.scan rest g
    | .option option none =>
      match rest with
      | [] => .error .usage
      | value :: rest =>
        if isValue value then do
          let g ← level.settled g
          level.scan rest { g with late := some (option.name, value) }
        else .error .usage

end EventFlow.CommandLine
