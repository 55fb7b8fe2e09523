import Mend.Shell.Builtin
import Mend.Shell.Reader
import Mend.Shell.Sum

/-!
# Running scripts

What the steps of a script do, in order. The parts of a pipe run from left to right, each on its own
with the whole output of the one before as its input; that tells apart nothing that the parts can
see of each other. Words are replaced and split before a command runs, and a command is a function
of the script, a command of the shell or a program.

The depth of steps is bounded by fuel, and so is the number of turns of a loop; a script that uses
it up is taken for one that has no time left.
-/

namespace Mend

namespace Shell

/-- The depth of steps that a script may reach. -/
def deepest : Nat := 3000

/-- The turns that a loop may take. -/
def longest : Nat := 10000000

/-- What the shell says about a file that it cannot use. -/
def openFault (e : DiskError) (missing : String) : Text :=
  if e = .notFound || e = .notDirectory then missing.toList else e.reason

/-- What the shell says about a file that it cannot read. -/
def readFault (path : Octets) (e : DiskError) : Text :=
  "cannot open ".toList ++ path ++ [':', ' '] ++ openFault e "No such file"

/-- What the shell says when a signal ends a process. -/
def signalText (n : Nat) : Text :=
  match n with
  | 1 => "Hangup".toList
  | 3 => "Quit".toList
  | 6 => "Aborted".toList
  | 9 => "Killed".toList
  | 11 => "Segmentation fault".toList
  | 14 => "Alarm clock".toList
  | 15 => "Terminated".toList
  | 10 => "User defined signal 1".toList
  | 12 => "User defined signal 2".toList
  | _ => []

/-- The error of a name that stands for no program: what is said and the status. -/
def missingProgram (p : Process) (m : Machine) (name : Octets) : Text × Nat :=
  if name.contains '/' then
    match (p.disk m).find name.toText with
    | .ok _ => ("Permission denied".toList, 126)
    | .error .notFound => ("not found".toList, 127)
    | .error .notDirectory => ("not found".toList, 127)
    | .error e => (e.reason, 126)
  else if name.isEmpty then ("Permission denied".toList, 127)
  else ("not found".toList, 127)

/-- The value of a sum, or the end of the script. -/
def evaluate (t : Octets) : Act Octets := do
  let e ← Act.env
  let failIn (what : String) : Act Octets :=
    Act.fail ("arithmetic expression: ".toList ++ what.toList ++ ": \"".toList ++ t ++ ['"'])
  match (Sum.read t).bind fun s => s.value e.vars with
  | .ok (n, vars) =>
    Act.setEnv ({ · with vars })
    return Sum.digitsOf n
  | .error .noOperand => failIn "expecting primary"
  | .error .notEnded => failIn "expecting EOF"
  | .error .zeroDivisor => failIn "division by zero"
  | .error (.badNumber value) => Act.fail ("Illegal number: ".toList ++ value)

/-- The value of a variable that must be there if the script says so. -/
def valueOf (name : Octets) : Act (Option Octets) := do
  let e ← Act.env
  match e.value? name with
  | some v => return some v
  | none =>
    if e.options.contains 'u' && name ≠ ['@'] && name ≠ ['*'] then
      Act.fail (name ++ ": parameter not set".toList)
    else return none

/-- Ends the script if the last command failed and that is asked for. -/
def checkFailure : Act Unit := do
  let e ← Act.env
  if e.status ≠ 0 && e.options.contains 'e' && !e.tested then throw .leave

/-- The options, and what is left, of the arguments that a shell is started with. -/
def startArgs : List Octets → Text × List Octets
  | [] => ([], [])
  | arg :: rest =>
    if arg = ['-'] || arg = "--".toList then ([], rest)
    else if arg.head? = some '-' then
      let (letters, rest) := startArgs rest
      (arg.drop 1 ++ letters, rest)
    else ([], arg :: rest)

mutual

/-- The fragments that pieces are replaced by. -/
def expand : Nat → List Piece → Act (List Fragment)
  | 0, _ => throw .stopped
  | fuel + 1, pieces => do
    let fragments ← pieces.mapM fun piece => expandPiece fuel piece
    return fragments.flatten

/-- The fragments that a piece is replaced by. -/
def expandPiece : Nat → Piece → Act (List Fragment)
  | 0, _ => throw .stopped
  | fuel + 1, piece => do
    let result (whole : Bool) (t : Octets) : List Fragment := [if whole then .whole t else .loose t]
    match piece with
    | .plain t => return [.plain t]
    | .quoted t => return [.whole t]
    | .variable name whole =>
      if name = ['@'] && whole then return [.several (← Act.env).args]
      else if (name = ['@'] || name = ['*']) && !whole then
        let separator := (← Act.env).separators.take 1
        return result false (Text.joinWith separator (← Act.env).args)
      else return result whole ((← valueOf name).getD [])
    | .size name whole =>
      return result whole (Text.ofNat ((← valueOf name).getD []).length)
    | .output script whole =>
      let t ← Act.captured (runSteps fuel script)
      return result whole (Text.dropEndWhile (· = '\n') t)
    | .bad => Act.fail "Bad substitution".toList
    | .sum expr whole =>
      let t := Fragment.text (← expand fuel expr)
      return result whole (← evaluate t)
    | .adapted name how blankToo word whole =>
      let value := (← Act.env).value? name
      let present := value.any fun v => !(blankToo && v.isEmpty)
      let here := result whole (value.getD [])
      let instead : Act (List Fragment) := return (← expand fuel word).map Fragment.loosen
      match how with
      | .default => if present then return here else instead
      | .instead => if present then instead else return result whole []
      | .assign =>
        if present then return here
        else
          let t := Fragment.text (← expand fuel word)
          Act.setVar [] name (some t)
          return result whole t
      | .complain =>
        if present then return here
        else
          let t := Fragment.text (← expand fuel word)
          let default := if blankToo then "parameter not set or null" else "parameter not set"
          Act.fail (name ++ [':', ' '] ++ if t.isEmpty then default.toList else t)
      | .cutFront longest =>
        let gs := Fragment.glyphs (← expand fuel word)
        return result whole (Glyph.cutFront gs longest ((← valueOf name).getD []))
      | .cutBack longest =>
        let gs := Fragment.glyphs (← expand fuel word)
        return result whole (Glyph.cutBack gs longest ((← valueOf name).getD []))

/-- The text of a word that is not split. -/
def expandText : Nat → List Piece → Act Octets
  | 0, _ => throw .stopped
  | fuel + 1, word => return Fragment.text (← expand fuel word)

/-- The arguments that words become. -/
def expandWords : Nat → List (List Piece) → Act (List Octets)
  | 0, _ => throw .stopped
  | fuel + 1, words => do
    let args ← words.mapM fun word => do
      let fragments ← expand fuel word
      let w ← get
      let fields := Fragment.fields w.env.separators fragments
      if w.env.options.contains 'f' then return fields.map Glyph.text
      else return fields.flatMap (Field.paths (w.env.process.disk w.machine))
    return args.flatten

/-- Puts redirections into effect, up to one that fails; the answer is whether all did. -/
def redirect : Nat → List Redirection → Act Bool
  | 0, _ => throw .stopped
  | _ + 1, [] => return true
  | fuel + 1, r :: rest => do
    let assign (n : Nat) (s : Stream) : Act Unit :=
      Act.setEnv fun e => { e with process := e.process.setStream n s }
    match r with
    | .merge n word =>
      let t ← expandText fuel word
      let close : Act Unit :=
        Act.setEnv fun e => { e with process := e.process.closeStream n }
      let p := (← Act.env).process
      match t, Text.toNat? t with
      | ['-'], _ =>
        close
        redirect fuel rest
      | [_], some target =>
        if p.isOpen target then
          assign n (p.stream target)
          redirect fuel rest
        else
          close
          Act.complain (t ++ ": Bad file descriptor".toList)
          return false
      | _, _ => Act.fail ScriptFault.badStream.message
    | .here n body =>
      let t ← expandText fuel body
      assign n (← Act.onMachine fun _ m => m.newPipe t.toBytes)
      redirect fuel rest
    | .input n word =>
      let path ← expandText fuel word
      match ← Act.onMachine fun p m => p.openInput path.toText m with
      | .ok s =>
        assign n s
        redirect fuel rest
      | .error e =>
        Act.complain (readFault path e)
        return false
    | .output n append word =>
      let path ← expandText fuel word
      match ← Act.onMachine fun p m => p.openOutput path.toText append m with
      | .ok s =>
        assign n s
        redirect fuel rest
      | .error e =>
        Act.complain
          ("cannot create ".toList ++ path ++ [':', ' '] ++ openFault e "Directory nonexistent")
        return false

/-- An act with redirections around it, or status 2 if they fail; that may end the script. -/
def redirected : Nat → Bool → List Redirection → Act Unit → Act Unit
  | 0, _, _, _ => throw .stopped
  | fuel + 1, mustWork, rs, a =>
    Act.within id (fun before after =>
      { after with process := { after.process with streams := before.process.streams } }) do
      if ← redirect fuel rs then a
      else
        Act.setEnv ({ · with status := 2 })
        if mustWork then throw .leave

/-- Gives values to variables. -/
def assignAll : Nat → List (Text × List Piece) → Act Unit
  | 0, _ => throw .stopped
  | _ + 1, [] => pure ()
  | fuel + 1, (name, word) :: rest => do
    let t ← expandText fuel word
    Act.setVar [] name (some t)
    assignAll fuel rest

/-- Runs a command with its arguments. -/
def runCommand : Nat → Octets → List Octets → Act Unit
  | 0, _, _ => throw .stopped
  | fuel + 1, name, args => do
    let e ← Act.env
    let finish (status : Nat) : Act Unit := Act.setEnv ({ · with status })
    match e.functions.lookup name with
    | some body =>
      let restore (before after : Env) : Env :=
        let after := after.kept.foldl (fun e (n, v) => e.setVar n v) after
        { after with args := before.args, kept := before.kept, calls := before.calls }
      Act.within (fun e => { e with args, kept := [], calls := e.calls + 1 }) restore do
        tryCatch (runStep fuel body) fun
          | .returns => pure ()
          | other => throw other
    | none =>
      match String.ofList name with
      | "eval" => runText fuel "eval: ".toList (Text.joinWith [' '] args)
      | "." =>
        let path := args.head?.getD []
        match (e.process.disk (← get).machine).readBytes path.toText with
        | .ok data =>
          tryCatch (runText fuel (path ++ [':', ' ']) (Octets.ofBytes data)) fun
            | .returns => pure ()
            | other => throw other
        | .error err =>
          if path.contains '/' then
            Act.fail (".: ".toList ++ readFault path err)
          else Act.fail (".: ".toList ++ path ++ ": not found".toList)
      | "command" =>
        match args with
        | ['-', 'v'] :: target :: _ =>
          let known := (Builtin.named? target []).isSome || (e.functions.lookup target).isSome
          let found := (Program.named? target).isSome || target = Program.scriptRunner
          if known then Act.say 1 (target ++ ['\n'])
          else if found then Act.say 1 ("/usr/bin/".toList ++ Program.baseName target ++ ['\n'])
          finish (if known || found then 0 else 127)
        | target :: rest =>
          Act.within ({ · with functions := [] })
            (fun before after => { after with functions := before.functions })
            (runCommand fuel target rest)
        | [] => finish 0
      | "exec" =>
        match args with
        | [] => finish 0
        | target :: rest =>
          if Program.baseName target = Program.scriptRunner then
            Act.apart id (startShell fuel e.process.id target rest)
            Act.setEnv ({ · with atExit := [] })
          else
            match Program.named? target with
            | some f =>
              finish (← Builtin.program f rest)
              Act.setEnv ({ · with atExit := [] })
            | none =>
              let (t, status) := missingProgram e.process (← get).machine target
              Act.complain ("exec: ".toList ++ target ++ [':', ' '] ++ t)
              finish status
          throw .leave
      | _ =>
        match Builtin.named? name args with
        | some a =>
          -- Only a command whose assignments last can end the script.
          let a : Act Unit := do finish (← a)
          tryCatch a fun halt =>
            if halt = .leave && !Builtin.isSpecial name then pure () else throw halt
        | none =>
          if Program.baseName name = Program.scriptRunner then
            let number ← Act.onMachine fun _ m =>
              (m.processes + 2, { m with processes := m.processes + 1 })
            tryCatch (Act.apart id (startShell fuel number name args)) fun
              | .killed process signal =>
                if process = number then do
                  let t := signalText signal
                  if !t.isEmpty then Act.say 2 (t ++ ['\n'])
                  finish (128 + signal)
                else throw (.killed process signal)
              | other => throw other
          else
            match Program.named? name with
            | some f => finish (← Builtin.program f args)
            | none =>
              let (t, status) := missingProgram e.process (← get).machine name
              Act.complain (name ++ [':', ' '] ++ t)
              finish status

/-- Runs a script that a process of its own is started with. -/
def startShell : Nat → Nat → Octets → List Octets → Act Unit
  | 0, _, _, _ => throw .stopped
  | fuel + 1, id, program, args => do
    let (options, rest) := startArgs args
    let begin (name : Octets) (args : List Octets) (line : Nat) : Act Unit :=
      Act.setEnv fun e =>
        { name, process := { e.process with id }
          vars := ("IFS".toList, Env.blanks) :: e.visible, exported := e.exported,
          args, line, options := options.filter fun c => c ≠ 'c' && c ≠ 's' }
    let atEnd : Act Unit := do
      let e ← Act.env
      if !e.atExit.isEmpty then
        Act.setEnv ({ · with atExit := [], ending := some e.status })
        let keep : Act Unit := Act.setEnv ({ · with status := e.status })
        tryCatch (runText fuel [] e.atExit *> keep) fun
          | .leave => pure ()
          | .returns => keep
          | other => throw other
    let run (script : Octets) : Act Unit := do
      Act.ended (runText fuel [] script)
      atEnd
    begin program [] 0
    Act.inTime
    if options.contains 'c' then
      match rest with
      | [] =>
        Act.complain "-c requires an argument".toList
        Act.setEnv ({ · with status := 2 })
      | script :: rest =>
        begin (rest.head?.getD program) (rest.drop 1) 1
        run script
    else
      match rest with
      | path :: args =>
        if options.contains 's' then
          begin program rest 1
          let data ← Act.onMachine fun p m => m.takeAll (p.stream 0)
          run (Octets.ofBytes data)
        else
          let e ← Act.env
          match (e.process.disk (← get).machine).readBytes path.toText with
          | .ok data =>
            begin path args 1
            run (Octets.ofBytes data)
          | .error err =>
            Act.complain (readFault path err)
            Act.setEnv ({ · with status := 2 })
      | [] =>
        begin program [] 1
        let data ← Act.onMachine fun p m => m.takeAll (p.stream 0)
        run (Octets.ofBytes data)

/-- Runs the script that a text is, up to a fault; what is said of one starts with a text of its
own. -/
def runText : Nat → Octets → Octets → Act Unit
  | 0, _, _ => throw .stopped
  | fuel + 1, start, t => do
    let script := Shell.read t
    if script.rows.all List.isEmpty then Act.setEnv ({ · with status := 0 })
    script.rows.forM fun row => runSteps fuel row
    match script.fault with
    | none => pure ()
    | some (fault, line) =>
      Act.setEnv ({ · with line })
      Act.fail (start ++ fault.message)

/-- Runs steps one after the other. -/
def runSteps : Nat → List Step → Act Unit
  | 0, _ => throw .stopped
  | fuel + 1, steps => steps.forM fun step => runStep fuel step

/-- Runs a step. -/
def runStep : Nat → Step → Act Unit
  | 0, _ => throw .stopped
  | fuel + 1, step => do
    Act.inTime
    match step with
    | .run line assignments words redirections =>
      Act.setEnv ({ · with line })
      let before ← Act.env
      match ← expandWords fuel words with
      | [] =>
        let assign : Act Unit := do
          assignAll fuel assignments
          -- Without a command, the status is that of the last output that was put into a word.
          if (← Act.env).outputs = before.outputs then Act.setEnv ({ · with status := 0 })
        redirected fuel false redirections assign
      | name :: args =>
        if (← Act.env).options.contains 'x' then
          Act.say 2 ('+' :: ' ' :: Text.joinWith [' '] (name :: args) ++ ['\n'])
        let special := Builtin.isSpecial name
        let names := assignments.map Prod.fst
        let a : Act Unit := do
          assignAll fuel assignments
          if !special then
            Act.setEnv fun e => { e with exported := names ++ e.exported }
          runCommand fuel name args
        let restore (before after : Env) : Env :=
          if special then after
          else
            names.foldl (fun e n => e.setVar n (before.vars.lookup n))
              { after with exported := after.exported.filter fun n =>
                  before.exported.contains n || !names.contains n }
        if name = "exec".toList && args.isEmpty then
          if ← redirect fuel redirections then Act.setEnv ({ · with status := 0 })
          else
            Act.setEnv ({ · with status := 2 })
            throw .leave
        else Act.within id restore (redirected fuel special redirections a)
      checkFailure
    | .pipe parts =>
      let start := (← get).machine.clock
      let out := (← Act.env).process.stream 1
      let input := (← Act.env).process.stream 0
      runPipe fuel start out input parts
      checkFailure
    | .negate step =>
      Act.tested (runStep fuel step)
      Act.setEnv fun e => { e with status := if e.status = 0 then 1 else 0 }
    | .chain onSuccess first second =>
      Act.tested (runStep fuel first)
      if ((← Act.env).status == 0) == onSuccess then runStep fuel second
    | .branch cases otherwise => runBranch fuel cases otherwise
    | .loop whileTrue condition body =>
      let status ← Act.again longest (fun status => do
        Act.inTime
        let goesOn ← Act.loopBody (Act.tested (runSteps fuel condition))
        if !goesOn then return (false, (← Act.env).status)
        else if ((← Act.env).status == 0) != whileTrue then return (false, status)
        else
          let goesOn ← Act.loopBody (runSteps fuel body)
          return (goesOn, (← Act.env).status)) 0
      Act.setEnv ({ · with status })
    | .each name words body =>
      let values ←
        match words with
        | some words => expandWords fuel words
        | none => do pure (← Act.env).args
      Act.setEnv ({ · with status := 0 })
      runEach fuel name values body
    | .choose word cases =>
      let t ← expandText fuel word
      Act.setEnv ({ · with status := 0 })
      runCases fuel t cases
    | .group true body =>
      Act.apart id (runSteps fuel body)
      checkFailure
    | .group false body => runSteps fuel body
    | .redirected step redirections => redirected fuel false redirections (runStep fuel step)
    | .background step =>
      let clock := (← get).machine.clock
      Act.apart (fun e => { e with process := e.process.setStream 0 .nowhere, tested := false })
        (runStep fuel step)
      modify fun w => { w with machine := { w.machine with clock } }
      Act.setEnv ({ · with status := 0 })
    | .define name body =>
      Act.setEnv fun e =>
        let others := e.functions.filter fun f => f.1 ≠ name
        { e with functions := (name, body) :: others, status := 0 }

/-- Runs the parts of a pipe from left to right. All of them start at one time, and the last to end
ends the pipe. -/
def runPipe : Nat → Nat → Stream → Stream → List Step → Act Unit
  | 0, _, _, _, _ => throw .stopped
  | _ + 1, _, _, _, [] => pure ()
  | fuel + 1, start, out, input, part :: rest => do
    let next ← if rest.isEmpty then pure out else Act.onMachine fun _ m => m.newPipe .empty
    let before := (← get).machine.clock
    modify fun w => { w with machine := { w.machine with clock := start } }
    Act.apart (fun e =>
        { e with process := (e.process.setStream 0 input).setStream 1 next, tested := true })
      (runStep fuel part)
    modify fun w => { w with machine := { w.machine with clock := max before w.machine.clock } }
    runPipe fuel start out next rest

/-- Runs the steps under the first condition that holds. -/
def runBranch : Nat → List (List Step × List Step) → List Step → Act Unit
  | 0, _, _ => throw .stopped
  | fuel + 1, [], otherwise => do
    Act.setEnv ({ · with status := 0 })
    runSteps fuel otherwise
  | fuel + 1, (condition, body) :: rest, otherwise => do
    Act.tested (runSteps fuel condition)
    if (← Act.env).status = 0 then runSteps fuel body else runBranch fuel rest otherwise

/-- Runs steps for each of several values of a variable. -/
def runEach : Nat → Text → List Octets → List Step → Act Unit
  | 0, _, _, _ => throw .stopped
  | _ + 1, _, [], _ => pure ()
  | fuel + 1, name, value :: rest, body => do
    Act.inTime
    Act.setVar [] name (some value)
    if ← Act.loopBody (runSteps fuel body) then runEach fuel name rest body

/-- Runs the steps of the first case with a pattern for a text. -/
def runCases : Nat → Octets → List (List (List Piece) × List Step) → Act Unit
  | 0, _, _ => throw .stopped
  | _ + 1, _, [] => pure ()
  | fuel + 1, t, (patterns, body) :: rest => do
    let fits ← patterns.anyM fun pattern =>
      return Glyph.stands (Fragment.glyphs (← expand fuel pattern)) t
    if fits then runSteps fuel body else runCases fuel t rest

end

end Shell

end Mend
