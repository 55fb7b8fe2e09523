import Mend.Shell.Machine
import Mend.Shell.Sum

/-!
# Conditions

The conditions that scripts test: about texts, numbers and files (`Condition.holds`). Few arguments
are read by their number, more of them by a grammar with `!`, `-a`, `-o` and brackets.
-/

namespace Mend

namespace Shell

namespace Condition

/-- A condition on one argument. -/
def unary? (p : Process) (m : Machine) (op : Octets) (arg : Octets) : Option Bool :=
  let d := p.disk m
  let path := arg.toText
  let isDevice := (p.device? path).isSome
  match String.ofList op with
  | "-n" => some !arg.isEmpty
  | "-z" => some arg.isEmpty
  | "-f" => some (!isDevice && d.isFile path)
  | "-d" => some (d.isDir path)
  | "-e" => some (isDevice || d.isThere path)
  | "-r" => some (isDevice || d.isThere path)
  | "-w" => some (isDevice || d.isThere path)
  | "-x" => some (d.isDir path)
  | "-c" => some isDevice
  | "-s" => some (d.isDir path || (d.readBytes path).toOption.any fun data => 0 < data.size)
  | "-h" => some false
  | "-L" => some false
  | "-p" => some false
  | "-S" => some false
  | "-b" => some false
  | "-t" => some false
  | _ => none

/-- A comparison of two numbers. -/
def numbers (a b : Octets) (test : Int → Int → Bool) : Except Octets Bool :=
  match Sum.integer? a, Sum.integer? b with
  | some x, some y => .ok (test x y)
  | none, _ => .error ("Illegal number: ".toList ++ a)
  | _, none => .error ("Illegal number: ".toList ++ b)

/-- A condition on two arguments. -/
def binary? (op a b : Octets) : Option (Except Octets Bool) :=
  match String.ofList op with
  | "=" => some (.ok (a = b))
  | "!=" => some (.ok (a ≠ b))
  | "<" => some (.ok (!Text.le b a))
  | ">" => some (.ok (!Text.le a b))
  | "-eq" => some (numbers a b fun x y => x = y)
  | "-ne" => some (numbers a b fun x y => x ≠ y)
  | "-lt" => some (numbers a b fun x y => x < y)
  | "-le" => some (numbers a b fun x y => x ≤ y)
  | "-gt" => some (numbers a b fun x y => y < x)
  | "-ge" => some (numbers a b fun x y => y ≤ x)
  | _ => none

mutual

/-- Conditions of which one must hold. -/
def readOr (p : Process) (m : Machine) : Nat → List Octets → Except Octets (Bool × List Octets)
  | 0, _ => .error "too many arguments".toList
  | fuel + 1, args => do
    let (a, rest) ← readAnd p m fuel args
    if rest.head? = some "-o".toList then
      let (b, rest) ← readOr p m fuel (rest.drop 1)
      return (a || b, rest)
    else return (a, rest)

/-- Conditions all of which must hold. -/
def readAnd (p : Process) (m : Machine) : Nat → List Octets → Except Octets (Bool × List Octets)
  | 0, _ => .error "too many arguments".toList
  | fuel + 1, args => do
    let (a, rest) ← readOne p m fuel args
    if rest.head? = some "-a".toList then
      let (b, rest) ← readAnd p m fuel (rest.drop 1)
      return (a && b, rest)
    else return (a, rest)

/-- One condition. -/
def readOne (p : Process) (m : Machine) : Nat → List Octets → Except Octets (Bool × List Octets)
  | 0, _ => .error "too many arguments".toList
  | fuel + 1, args =>
    match args with
    | [] => .ok (false, [])
    | a :: op :: b :: rest =>
      match binary? op a b with
      | some r => r.map (·, rest)
      | none => readSingle p m fuel args
    | [_, op] =>
      if (binary? op [] []).isSome then .error (op ++ ": argument expected".toList)
      else readSingle p m fuel args
    | _ => readSingle p m fuel args

/-- One condition that is no comparison. -/
def readSingle (p : Process) (m : Machine) : Nat → List Octets → Except Octets (Bool × List Octets)
  | 0, _ => .error "too many arguments".toList
  | fuel + 1, args =>
    match args with
    | [] => .ok (false, [])
    | [a] => .ok (!a.isEmpty, [])
    | a :: b :: rest =>
      if a = ['!'] then (readOne p m fuel (b :: rest)).map fun (r, rest) => (!r, rest)
      else if a = ['('] then do
        let (r, rest) ← readOr p m fuel (b :: rest)
        if rest.head? = some [')'] then return (r, rest.drop 1)
        else throw "closing paren expected".toList
      else
        match unary? p m a b with
        | some r => .ok (r, rest)
        | none => .ok (!a.isEmpty, b :: rest)

end

/-- Whether the condition in arguments holds; no argument is false. -/
def holds (p : Process) (m : Machine) (args : List Octets) : Except Octets Bool :=
  if args.isEmpty then .ok false
  else
    match readOr p m (4 * args.length + 4) args with
    | .ok (r, []) => .ok r
    | .ok (_, rest) =>
      let last := (args[args.length - rest.length - 1]?).getD []
      .error (last ++ ": unexpected operator".toList)
    | .error e => .error e

end Condition

end Shell

end Mend
