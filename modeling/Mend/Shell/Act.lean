import Mend.Shell.Field
import Mend.Shell.Program
import Mend.Shell.Tree

/-!
# Acts of scripts

What a step of a script does: it changes what the script knows (`Env`) and the machine, and either
goes on or halts (`Halt`). Halting keeps all changes that were made before.
-/

namespace Mend

namespace Shell

/-- Why the steps that follow are not run. -/
inductive Halt where
  /-- The script ends. -/
  | leave
  /-- A function ends. -/
  | returns
  /-- Loops end, as many as the number says. -/
  | breaks (n : Nat)
  /-- Loops end but for the outermost of the number, which goes on. -/
  | continues (n : Nat)
  /-- A process is ended by a signal. -/
  | killed (process signal : Nat)
  /-- There is no time left. -/
  | stopped
  deriving DecidableEq, Repr

/-- What a script knows. -/
structure Env where
  /-- The name of the script. -/
  name : Octets
  /-- The process that runs it. -/
  process : Process
  /-- The values of variables. -/
  vars : List (Octets × Octets) := []
  /-- The variables that other processes see. -/
  exported : List Octets := []
  /-- The arguments. -/
  args : List Octets := []
  /-- The functions. -/
  functions : List (Octets × Step) := []
  /-- The status of the last command. -/
  status : Nat := 0
  /-- The line of the last command. -/
  line : Nat := 1
  /-- The options, by letter. -/
  options : Text := []
  /-- Whether a status is being tested, so that a failure ends nothing. -/
  tested : Bool := false
  /-- The loops around. -/
  loops : Nat := 0
  /-- The functions around. -/
  calls : Nat := 0
  /-- The values to put back at the end of a function. -/
  kept : List (Octets × Option Octets) := []
  /-- The variables that keep their values. -/
  fixed : List Octets := []
  /-- The script to run at the end. -/
  atExit : Octets := []
  /-- The status at the end, while the script for the end runs. -/
  ending : Option Nat := none
  /-- The number of outputs that were put into words. -/
  outputs : Nat := 0

/-- What acts change. -/
structure World where
  /-- What the script knows. -/
  env : Env
  /-- The machine. -/
  machine : Machine

/-- A change of the world, with a result unless it halts. -/
abbrev Act := ExceptT Halt (StateM World)

namespace Env

/-- The separators of a script that names none. -/
def blanks : Octets := [' ', '\t', '\n']

/-- The separators at which values are split. -/
def separators (e : Env) : Octets := (e.vars.lookup "IFS".toList).getD blanks

/-- The value of a variable or of an argument. -/
def value? (e : Env) (name : Octets) : Option Octets :=
  match name with
  | ['?'] => some (Text.ofNat e.status)
  | ['#'] => some (Text.ofNat e.args.length)
  | ['$'] => some (Text.ofNat e.process.id)
  | ['-'] => some e.options
  | ['!'] => some []
  | ['@'] => if e.args.isEmpty then none else some (Text.joinWith [' '] e.args)
  | ['*'] => if e.args.isEmpty then none else some (Text.joinWith (e.separators.take 1) e.args)
  | _ =>
    match Text.toNat? name with
    | some 0 => some e.name
    | some (n + 1) => e.args[n]?
    | none => e.vars.lookup name

/-- A new value for a variable, or none. -/
def setVar (e : Env) (name : Octets) (value : Option Octets) : Env :=
  let others := e.vars.filter fun v => v.1 ≠ name
  { e with vars := (value.map fun v => (name, v)).toList ++ others }

/-- What another process sees of the variables. -/
def visible (e : Env) : List (Octets × Octets) := e.vars.filter fun v => e.exported.contains v.1

end Env

namespace Act

/-- What the script knows. -/
def env : Act Env := return (← get).env

/-- A change of what the script knows. -/
def setEnv (f : Env → Env) : Act Unit := modify fun w => { w with env := f w.env }

/-- A change of the machine, with a result. -/
def onMachine {α : Type} (f : Process → Machine → α × Machine) : Act α := do
  let w ← get
  let (a, m) := f w.env.process w.machine
  set { w with machine := m }
  return a

/-- Goes on only if there is time left. -/
def inTime : Act Unit := do
  if (← get).machine.isExpired then throw .stopped

/-- Writes to a stream. -/
def say (n : Nat) (t : Octets) : Act Unit := onMachine fun p m => ((), p.say n t m)

/-- Writes a message with the name and line of the script. -/
def complain (t : Octets) : Act Unit := do
  let e ← env
  say 2 (e.name ++ [':', ' '] ++ Text.ofNat e.line ++ [':', ' '] ++ t ++ ['\n'])

/-- Writes a message, and ends the script with status 2. -/
def fail {α : Type} (t : Octets) : Act α := do
  complain t
  setEnv ({ · with status := 2 })
  throw .leave

/-- Gives a variable a value or takes it away, unless it keeps the one it has. What is said of that
starts with a text of its own. -/
def setVar (start : Text) (name : Octets) (value : Option Octets) : Act Unit := do
  if (← env).fixed.contains name then fail (start ++ name ++ ": is read only".toList)
  setEnv (·.setVar name value)

/-- An act after which part of what the script knows is put back, also when it halts. `restore`
takes what was known before and what is known after. -/
def within {α : Type} (enter : Env → Env) (restore : Env → Env → Env) (a : Act α) : Act α :=
  ExceptT.mk fun w =>
    let (r, after) := a.run { w with env := enter w.env }
    (r, { after with env := restore w.env after.env })

/-- An act whose status is tested. -/
def tested (a : Act Unit) : Act Unit :=
  within ({ · with tested := true }) (fun before after => { after with tested := before.tested }) a

/-- The end of an act: the status of one that halts, but not by a signal or the clock. -/
def ended (a : Act Unit) : Act Unit :=
  tryCatch a fun
    | .killed process signal => throw (.killed process signal)
    | .stopped => throw .stopped
    | _ => pure ()

/-- An act on its own: the script learns nothing from it but its status. -/
def apart (enter : Env → Env) (a : Act Unit) : Act Unit :=
  within enter (fun before after => { before with status := after.status }) (ended a)

/-- The output of an act on its own. -/
def captured (a : Act Unit) : Act Octets := do
  let s ← onMachine fun _ m => m.newPipe .empty
  apart (fun e => { e with process := e.process.setStream 1 s, tested := false }) a
  let data ← onMachine fun _ m => m.takeAll s
  setEnv fun e => { e with outputs := e.outputs + 1 }
  return Octets.ofBytes data

/-- An act that is done again as long as it says so, with a number that it hands on. -/
def again : Nat → (Nat → Act (Bool × Nat)) → Nat → Act Nat
  | 0, _, _ => throw .stopped
  | left + 1, a, n => do
    let (goesOn, n) ← a n
    if goesOn then again left a n else return n

/-- The body of a loop; the answer is whether the loop goes on. -/
def loopBody (a : Act Unit) : Act Bool :=
  within (fun e => { e with loops := e.loops + 1 }) (fun before after =>
      { after with loops := before.loops }) <|
    tryCatch (a *> pure true) fun
      | .breaks (n + 2) => throw (.breaks (n + 1))
      | .breaks _ => pure false
      | .continues (n + 2) => throw (.continues (n + 1))
      | .continues _ => pure true
      | other => throw other

end Act

end Shell

end Mend
