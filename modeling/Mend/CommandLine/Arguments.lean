import Mend.Text.Basic

/-!
# Arguments

How the arguments of a program are read. A program has commands (`ProgramSyntax`), and a command has
options with names and operands without (`CommandSyntax`). Arguments are read from left to right
(`CommandSyntax.read`): what follows an option that takes a value is its value, and after two
hyphens everything is an operand. Reading stops at the first argument that asks for help or the
version, or that is wrong (`ArgumentStop`).
-/

namespace Mend

/-- What a value must be. -/
inductive ValueKind where
  /-- A path, which is not empty. -/
  | path
  /-- A number below a bound. -/
  | number (bound : Nat)
  deriving DecidableEq, Repr

/-- Something that a command takes. -/
inductive Parameter where
  /-- A name that stands alone. It may have a letter besides. -/
  | flag (name : Text) (letter : Option Char)
  /-- A name with a value. -/
  | option (name : Text) (kind : ValueKind) (isRequired : Bool)
  /-- A value without a name, which must be there. -/
  | operand (name : Text) (kind : ValueKind)
  deriving DecidableEq, Repr

/-- What the arguments of a command are. -/
structure CommandSyntax where
  /-- The name of the command. -/
  name : Text
  /-- What it takes. -/
  parameters : List Parameter
  deriving DecidableEq, Repr

/-- What the arguments of a program are: a command and those of the command. -/
structure ProgramSyntax where
  /-- The name of the program. -/
  name : Text
  /-- The version of the program. -/
  version : Text
  /-- Its commands. -/
  commands : List CommandSyntax
  deriving DecidableEq, Repr

/-- What can be wrong with arguments. -/
inductive ArgumentFault where
  /-- There is no command. -/
  | noCommand
  /-- There is no such command. -/
  | unknownCommand (t : Text)
  /-- Nothing of that name or place is taken. -/
  | unexpected (t : Text)
  /-- An option has no value. -/
  | noValue (name : Text)
  /-- A value is not what it must be. -/
  | badValue (name value : Text)
  /-- Something is given twice. -/
  | repeated (name : Text)
  /-- Something that must be there is not. -/
  | missing (name : Text)
  deriving DecidableEq, Repr

/-- The text of a fault. -/
def ArgumentFault.message : ArgumentFault → Text
  | noCommand => "a command is required".toList
  | unknownCommand t => "unrecognized command '".toList ++ t ++ ['\'']
  | unexpected t => "unexpected argument '".toList ++ t ++ ['\'']
  | noValue name => "a value is required for '".toList ++ name ++ ['\'']
  | badValue name value =>
    "invalid value '".toList ++ value ++ "' for '".toList ++ name ++ ['\'']
  | repeated name => "'".toList ++ name ++ "' cannot be used multiple times".toList
  | missing name => "'".toList ++ name ++ "' is required".toList

/-- Why arguments ask for no command to be run. -/
inductive ArgumentStop where
  /-- They ask for help. -/
  | help
  /-- They ask for the version. -/
  | version
  /-- They have a fault. -/
  | fault (f : ArgumentFault)
  deriving DecidableEq, Repr

/-- The arguments that were read, by name. -/
structure Given where
  /-- The names that stand alone. -/
  flags : List Text := []
  /-- The values. -/
  values : List (Text × Text) := []
  deriving DecidableEq, Repr

namespace Given

/-- Whether a name stands among the arguments. -/
def has (g : Given) (name : Text) : Bool := g.flags.contains name || (g.values.lookup name).isSome

/-- The value of a name; nothing when there is none. -/
def value? (g : Given) (name : String) : Option Text := g.values.lookup name.toList

/-- The value of a name that must be there. -/
def value (g : Given) (name : String) : Text := (g.value? name).getD []

/-- The number that is the value of a name. -/
def number? (g : Given) (name : String) : Option Nat :=
  (g.value? name).bind fun t => Text.toNat? (Text.dropPrefix ['+'] t)

/-- The arguments with one more name that stands alone. -/
def addFlag (g : Given) (name : Text) : Except ArgumentStop Given :=
  if g.has name then .error (.fault (.repeated name))
  else .ok { g with flags := name :: g.flags }

/-- The arguments with one more value. -/
def addValue (g : Given) (name : Text) (kind : ValueKind) (t : Text) : Except ArgumentStop Given :=
  let isGood : Bool :=
    match kind with
    | .path => !t.isEmpty
    | .number bound => (Text.toNat? (Text.dropPrefix ['+'] t)).any (· < bound)
  if !isGood then .error (.fault (.badValue name t))
  else if g.has name then .error (.fault (.repeated name))
  else .ok { g with values := (name, t) :: g.values }

end Given

namespace CommandSyntax

/-- The flag with a letter. -/
def letter? (s : CommandSyntax) (c : Char) : Option Text :=
  s.parameters.findSome? fun
    | .flag name letter => if letter = some c then some name else none
    | _ => none

/-- The parameter with a name. -/
def named? (s : CommandSyntax) (t : Text) : Option Parameter :=
  s.parameters.find? fun
    | .flag name _ => name = t
    | .option name _ _ => name = t
    | .operand _ _ => false

/-- The next operand that is not given. -/
def operand? (s : CommandSyntax) (g : Given) : Option (Text × ValueKind) :=
  s.parameters.findSome? fun
    | .operand name kind => if g.has name then none else some (name, kind)
    | _ => none

/-- The arguments after letters behind one hyphen. -/
def readLetters (s : CommandSyntax) : Text → Given → Except ArgumentStop Given
  | [], g => .ok g
  | c :: rest, g =>
    if c = 'h' then .error .help
    else
      match s.letter? c with
      | none => .error (.fault (.unexpected ['-', c]))
      | some name =>
        match g.addFlag name with
        | .ok g => readLetters s rest g
        | .error e => .error e

/-- The first thing that must be there and is not. -/
def missing? (s : CommandSyntax) (g : Given) : Option Text :=
  s.parameters.findSome? fun
    | .flag _ _ => none
    | .option name _ isRequired => if isRequired && !g.has name then some name else none
    | .operand name _ => if g.has name then none else some name

/-- The name and the value of a long option, without its hyphens. -/
def longOption (t : Text) : Text × Option Text :=
  match Text.cutFirst? '=' t with
  | some (name, value) => (name, some value)
  | none => (t, none)

/-- One more argument that is no option. -/
def readOperand (s : CommandSyntax) (t : Text) (g : Given) : Except ArgumentStop Given :=
  match s.operand? g with
  | some (name, kind) => g.addValue name kind t
  | none => .error (.fault (.unexpected t))

/-- Reads the arguments of a command. `pending` is the option whose value comes next, and with
`bare` all that comes is operands. -/
def readFrom (s : CommandSyntax) (pending : Option (Text × ValueKind)) (bare : Bool) :
    List Text → Given → Except ArgumentStop Given
  | [], g =>
    match pending, s.missing? g with
    | some (name, _), _ => .error (.fault (.noValue name))
    | none, some name => .error (.fault (.missing name))
    | none, none => .ok g
  | arg :: rest, g =>
    let isOption := !bare && arg.head? = some '-' && 1 < arg.length
    match pending with
    | some (name, kind) =>
      if isOption then .error (.fault (.noValue name))
      else
        match g.addValue name kind arg with
        | .ok g => readFrom s none bare rest g
        | .error e => .error e
    | none =>
      if !isOption then
        match s.readOperand arg g with
        | .ok g => readFrom s none bare rest g
        | .error e => .error e
      else if arg = ['-', '-'] then readFrom s none true rest g
      else if arg[1]? ≠ some '-' then
        match s.readLetters (arg.drop 1) g with
        | .ok g => readFrom s none bare rest g
        | .error e => .error e
      else
        let (name, value) := longOption (arg.drop 2)
        match s.named? name, value with
        | some (.flag name _), none =>
          match g.addFlag name with
          | .ok g => readFrom s none bare rest g
          | .error e => .error e
        | some (.option name kind _), some t =>
          match g.addValue name kind t with
          | .ok g => readFrom s none bare rest g
          | .error e => .error e
        | some (.option name kind _), none => readFrom s (some (name, kind)) bare rest g
        | none, none =>
          if name = "help".toList then .error .help else .error (.fault (.unexpected arg))
        | _, _ => .error (.fault (.unexpected arg))

/-- Reads the arguments of a command. -/
def read (s : CommandSyntax) (args : List Text) : Except ArgumentStop Given :=
  s.readFrom none false args {}

end CommandSyntax

namespace ProgramSyntax

/-- The command with a name. -/
def command? (s : ProgramSyntax) (t : Text) : Option CommandSyntax :=
  s.commands.find? fun c => c.name = t

/-- What arguments after a request for help ask for. -/
def readHelp (s : ProgramSyntax) : List Text → ArgumentStop
  | [] => .help
  | [name] =>
    if (s.command? name).isSome || name = "help".toList then .help
    else .fault (.unknownCommand name)
  | _ :: extra :: _ => .fault (.unknownCommand extra)

/-- Reads the arguments of a program: the command, and what is given to it. -/
def read (s : ProgramSyntax) (args : List Text) : Except ArgumentStop (CommandSyntax × Given) :=
  match args with
  | [] => .error (.fault .noCommand)
  | first :: rest =>
    if first = "--help".toList || (first.take 2 = ['-', 'h']) then .error .help
    else if first = "--version".toList || (first.take 2 = ['-', 'V']) then .error .version
    else if first.head? = some '-' && 1 < first.length then .error (.fault (.unexpected first))
    else if first = "help".toList then .error (s.readHelp rest)
    else
      match s.command? first with
      | none => .error (.fault (.unknownCommand first))
      | some c =>
        match c.read rest with
        | .ok g => .ok (c, g)
        | .error e => .error e

/-- How the program is used. -/
def usage (s : ProgramSyntax) : Text :=
  "Usage: ".toList ++ s.name ++ " <COMMAND>\n\nCommands:\n".toList ++
    s.commands.flatMap fun c => ' ' :: ' ' :: c.name ++ ['\n']

end ProgramSyntax

/-- What a program leaves when it ends. -/
structure Printed where
  /-- Its status. -/
  code : Nat
  /-- What it printed. -/
  output : Text := []
  /-- Its messages. -/
  errors : Text := []
  deriving DecidableEq, Repr

/-- What a program prints instead of running a command. -/
def ArgumentStop.printed (s : ProgramSyntax) : ArgumentStop → Printed
  | help => { code := 0, output := s.usage }
  | version => { code := 0, output := s.name ++ ' ' :: s.version ++ ['\n'] }
  | fault f => { code := 2, errors := "error: ".toList ++ f.message ++ "\n\n".toList ++ s.usage }

end Mend
