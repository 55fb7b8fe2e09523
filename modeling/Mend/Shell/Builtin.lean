import Mend.Shell.Act
import Mend.Shell.Condition

/-!
# Commands of the shell itself

The commands that change what a script knows or halt it, and those that the shell has without a
program: each takes arguments and answers a status. The ones that run steps stand with the steps.
-/

namespace Mend

namespace Shell

/-- Whether a text is a name of variables. -/
def isVariable (t : Octets) : Bool :=
  !t.isEmpty && t.all isWordChar && !t.head?.any Char.isDigit

/-- A message about a command, without a change of the script. -/
def Act.grumble (command : String) (t : Octets) : Act Nat := do
  Act.complain (command.toList ++ [':', ' '] ++ t)
  return 2

namespace Builtin

/-- The number that an argument writes, or the end of the script. -/
def number (command : String) (t : Octets) : Act Nat :=
  match Text.toNat? t with
  | some n => pure n
  | none => Act.fail (command.toList ++ ": Illegal number: ".toList ++ t)

/-- Runs a program as a command. -/
def program (f : Program) (args : List Octets) : Act Nat := do
  let status ← Act.onMachine fun p m => f p args m
  Act.inTime
  return status

/-- Goes to another directory. -/
def cd (args : List Octets) : Act Nat := do
  let e ← Act.env
  let target :=
    match args with
    | [] => (e.vars.lookup "HOME".toList).getD []
    | ['-'] :: _ => (e.vars.lookup "OLDPWD".toList).getD []
    | t :: _ => t
  let m := (← get).machine
  match (e.process.disk m).find target.toText with
  | .ok (loc, .dir) =>
    let before := Octets.ofText (Disk.pathOf e.process.dir)
    let here := Octets.ofText (Disk.pathOf loc)
    Act.setEnv fun e =>
      let e := e.setVar "OLDPWD".toList (some before) |>.setVar "PWD".toList (some here)
      { e with process := { e.process with dir := loc } }
    if args.head? = some ['-'] then Act.say 1 (here ++ ['\n'])
    return 0
  | _ => Act.grumble "cd" ("can't cd to ".toList ++ target)

/-- The name and the value of an assignment. -/
def assigned (t : Octets) : Octets × Option Octets :=
  match Text.cutFirst? '=' t with
  | some (name, value) => (name, some value)
  | none => (t, none)

/-- Gives values to variables. -/
def assign (command : String) (args : List Octets) : Act Nat := do
  args.forM fun arg => do
    let (name, value) := assigned arg
    if !isVariable name then Act.fail (name ++ ": bad variable name".toList)
    if value.isSome then Act.setVar (command.toList ++ [':', ' ']) name value
  return 0

/-- Gives variables values that stay. -/
def fix (args : List Octets) : Act Nat := do
  let status ← assign "readonly" args
  Act.setEnv fun e => { e with fixed := e.fixed ++ args.map fun arg => (assigned arg).1 }
  return status

/-- Gives values to variables that other processes see. -/
def export? (args : List Octets) : Act Nat := do
  let names := args.map fun arg => (assigned arg).1
  Act.setEnv fun e => { e with exported := e.exported ++ names.filter (!e.exported.contains ·) }
  assign "export" args

/-- Gives values to variables up to the end of the function. -/
def keep (args : List Octets) : Act Nat := do
  if (← Act.env).calls = 0 then Act.fail "local: not in a function".toList
  let names := args.map fun arg => (assigned arg).1
  Act.setEnv fun e => { e with kept := names.map (fun n => (n, e.vars.lookup n)) ++ e.kept }
  assign "local" args

/-- Takes away variables or functions. -/
def unset (args : List Octets) : Act Nat := do
  if args.head? = some "-f".toList then
    Act.setEnv fun e => { e with functions := e.functions.filter fun f => !args.contains f.1 }
  else
    let names := args.filter (· ≠ "-v".toList)
    names.forM fun n => Act.setVar "unset: ".toList n none
  return 0

/-- Sets options and arguments. -/
def setOptions : List Octets → Act Nat
  | [] => return 0
  | arg :: rest =>
    if arg = "--".toList then do
      Act.setEnv ({ · with args := rest })
      return 0
    else if arg.head? = some '-' && 1 < arg.length then do
      Act.setEnv fun e =>
        { e with options := e.options ++ (arg.drop 1).filter (!e.options.contains ·) }
      setOptions rest
    else if arg.head? = some '+' && 1 < arg.length then do
      Act.setEnv fun e => { e with options := e.options.filter (!arg.contains ·) }
      setOptions rest
    else do
      Act.setEnv ({ · with args := arg :: rest })
      return 0

/-- Leaves out arguments. -/
def shift (args : List Octets) : Act Nat := do
  let n ← args.head?.elim (pure 1) (number "shift")
  if (← Act.env).args.length < n then Act.fail "shift: can't shift that many".toList
  Act.setEnv fun e => { e with args := e.args.drop n }
  return 0

/-- The parts of a line for a number of variables; the last of them takes the rest. -/
def lineParts (separators : Octets) : Nat → Octets → List Octets
  | 0, _ => []
  | n + 1, t =>
    let isBlank (c : Char) : Bool :=
      separators.contains c && (c = ' ' || c = '\t' || c = '\n')
    let t := t.dropWhile isBlank
    if n = 0 then [Text.dropEndWhile isBlank t]
    else
      let part := t.takeWhile fun c => !separators.contains c
      let rest := (t.drop part.length).dropWhile isBlank
      let rest :=
        match rest with
        | c :: more => if separators.contains c then more else rest
        | [] => []
      part :: lineParts separators n rest

/-- A line without its backslashes, and whether one stood at its end. -/
def unescapeLine : Octets → Octets × Bool
  | [] => ([], false)
  | ['\\'] => ([], true)
  | '\\' :: c :: rest =>
    let (t, joined) := unescapeLine rest
    (c :: t, joined)
  | c :: rest =>
    let (t, joined) := unescapeLine rest
    (c :: t, joined)

/-- Reads lines of input that are joined by backslashes; `fuel` bounds their number. -/
def readLine (raw : Bool) : Nat → Act (Octets × Bool)
  | 0 => return ([], false)
  | fuel + 1 => do
    let (line, whole) ← Act.onMachine fun p m =>
      let (line, whole, m) := m.takeLine (p.stream 0)
      ((line, whole), m)
    if raw then return (line, whole)
    else
      let (t, joined) := unescapeLine line
      if joined && whole then
        let (more, whole) ← readLine raw fuel
        return (t ++ more, whole)
      else return (t, whole)

/-- Reads a line of input into variables. -/
def read (args : List Octets) : Act Nat := do
  let raw : Bool := args.head? = some "-r".toList
  let names := if raw then args.drop 1 else args
  let (line, whole) ← readLine raw 1000
  let parts := lineParts (← Act.env).separators names.length line
  names.zipIdx.forM fun (name, i) => Act.setVar "read: ".toList name (some (parts.getD i []))
  return if whole then 0 else 1

/-- A command that writes, if it can. -/
def writing (command : String) (a : Act Nat) : Act Nat := do
  if (← Act.env).process.isOpen 1 then a
  else
    Act.complain (command.toList ++ [':', ' '] ++ command.toList ++ ": I/O error".toList)
    return 1

/-- Writes its arguments. -/
def echo (args : List Octets) : Act Nat := do
  let plain : Bool := args.head? = some "-n".toList
  Act.say 1 (Format.echo .shell true (!plain) (if plain then args.drop 1 else args))
  return 0

/-- Tests a condition. -/
def test (command : String) (args : List Octets) : Act Nat := do
  let w ← get
  match Condition.holds w.env.process w.machine args with
  | .ok true => return 0
  | .ok false => return 1
  | .error t => Act.grumble command t

/-- Tests the condition between brackets. -/
def bracket (args : List Octets) : Act Nat :=
  if args.getLast? = some [']'] then test "[" args.dropLast
  else Act.grumble "[" "missing ]".toList

/-- The numbers of signals. -/
def signals : List (Text × Nat) :=
  [("HUP", 1), ("INT", 2), ("QUIT", 3), ("ABRT", 6), ("KILL", 9), ("USR1", 10), ("SEGV", 11),
   ("USR2", 12), ("PIPE", 13), ("ALRM", 14), ("TERM", 15)].map fun (n, k) => (n.toList, k)

/-- The number of a signal that is named or numbered. -/
def signal? (t : Octets) : Option Nat :=
  (Text.toNat? t).or (signals.lookup (Text.dropPrefix "SIG".toList t))

/-- Sends a signal to a process. Other processes than the one of the script are not there. -/
def kill (args : List Octets) : Act Nat := do
  let (name, targets) : Octets × List Octets :=
    match args with
    | ['-', 's'] :: name :: rest => (name, rest)
    | ('-' :: name) :: rest => (name, rest)
    | rest => ("TERM".toList, rest)
  let e ← Act.env
  match signal? name, targets with
  | some n, target :: _ =>
    if Text.toNat? target ≠ some e.process.id then
      Act.complain "kill: No such process\n".toList
      return 1
    else if n = 0 then return 0
    else throw (.killed e.process.id n)
  | _, _ => Act.grumble "kill" ("Illegal option -".toList ++ name)

/-- Ends the script, a function or loops. -/
def halting? (command : Octets) (args : List Octets) : Option (Act Nat) :=
  let withStatus (name : String) (h : Halt) : Act Nat := do
    let e ← Act.env
    let status ← args.head?.elim (pure (e.ending.getD e.status)) (number name)
    Act.setEnv ({ · with status := status % 256 })
    throw h
  let withLoops (name : String) (h : Nat → Halt) : Act Nat := do
    let n ← args.head?.elim (pure 1) (number name)
    let loops := (← Act.env).loops
    if loops = 0 then return 0
    else
      Act.setEnv ({ · with status := 0 })
      throw (h (min n loops))
  match String.ofList command with
  | "exit" => some (withStatus "exit" .leave)
  | "return" => some (withStatus "return" .returns)
  | "break" => some (withLoops "break" .breaks)
  | "continue" => some (withLoops "continue" .continues)
  | _ => none

/-- The commands after which assignments before them stay. -/
def isSpecial (name : Octets) : Bool := lastingCommands.contains name

/-- The commands that run no steps. -/
def named? (name : Octets) (args : List Octets) : Option (Act Nat) :=
  match String.ofList name with
  | ":" => some (pure 0)
  | "true" => some (pure 0)
  | "false" => some (pure 1)
  | "wait" => some (pure 0)
  | "umask" => some (pure 0)
  | "echo" => some (writing "echo" (echo args))
  | "printf" => some <| writing "printf" do
    let e ← Act.env
    program (.printf .shell (e.name ++ [':', ' '] ++ Text.ofNat e.line ++ [':', ' '])) args
  | "test" => some (test "test" args)
  | "[" => some (bracket args)
  | "pwd" => some (writing "pwd" (program .pwd args))
  | "cd" => some (cd args)
  | "export" => some (export? args)
  | "readonly" => some (fix args)
  | "local" => some (keep args)
  | "unset" => some (unset args)
  | "set" => some (setOptions args)
  | "shift" => some (shift args)
  | "read" => some (read args)
  | "kill" => some (kill args)
  | "trap" => some do
    match args with
    | script :: names =>
      if names.contains "EXIT".toList || names.contains ['0'] then
        Act.setEnv ({ · with atExit := if script = ['-'] then [] else script })
      return 0
    | [] => return 0
  | _ => halting? name args

end Builtin

end Shell

end Mend
