import Mend.Text.Basic

/-!
# Sums in scripts

Whole numbers of 64 bits with variables, comparisons, conditions and assignments. `Sum.read` reads a
sum with the usual ranks of its operators, and `Sum.value` works it out from the values of variables
and answers also the values that it gave them.
-/

namespace Mend

namespace Shell

/-- A sum. -/
inductive Sum where
  /-- A number. -/
  | number (n : Int)
  /-- The number in a variable. -/
  | variable (name : Text)
  /-- An operator before a sum. -/
  | unary (op : Char) (a : Sum)
  /-- An operator between sums. -/
  | binary (op : Text) (a b : Sum)
  /-- The second sum or the third one, by the first. -/
  | choose (condition a b : Sum)
  /-- A new value for a variable, perhaps worked out from its old one. -/
  | assign (name : Text) (op : Option Text) (a : Sum)

/-- Why a sum has no value. -/
inductive SumFault where
  /-- A number, a variable or a bracket is missing. -/
  | noOperand
  /-- Something comes after it. -/
  | notEnded
  /-- It divides by zero. -/
  | zeroDivisor
  /-- The value of a variable is no number. -/
  | badNumber (value : Text)
  deriving DecidableEq, Repr

namespace Sum

/-- The number of 64 bits that is left of a number. -/
def wrap (n : Int) : Int := Int.bmod n (2 ^ 64)

/-- The value of a digit in bases up to 16. -/
def digit? (base : Nat) (c : Char) : Option Nat :=
  let n :=
    if c.isDigit then c.toNat - '0'.toNat
    else if 'a' ≤ c && c ≤ 'f' then c.toNat - 'a'.toNat + 10
    else if 'A' ≤ c && c ≤ 'F' then c.toNat - 'A'.toNat + 10
    else 99
  if n < base then some n else none

/-- The number that digits write. -/
def digits? (base : Nat) (t : Text) : Option Nat :=
  if t.isEmpty then none
  else t.foldl (fun n c => n.bind fun n => (digit? base c).map (n * base + ·)) (some 0)

/-- The number that a text writes: decimal, or octal after a zero, or of base 16 after `0x`. -/
def natural? (t : Text) : Option Nat :=
  match t with
  | '0' :: 'x' :: rest => digits? 16 rest
  | '0' :: 'X' :: rest => digits? 16 rest
  | '0' :: c :: rest => digits? 8 (c :: rest)
  | _ => digits? 10 t

/-- The number that a text with a sign writes. -/
def integer? (t : Text) : Option Int :=
  match t.trim with
  | '-' :: rest => (natural? rest).map fun n => -(n : Int)
  | '+' :: rest => (natural? rest).map Int.ofNat
  | rest => (natural? rest).map Int.ofNat

/-- The number at the start of a text of digits, and what comes after it. -/
def takeNatural (t : Text) : Nat × Text :=
  let (base, front) : Nat × Nat :=
    match t with
    | '0' :: 'x' :: _ => (16, 2)
    | '0' :: 'X' :: _ => (16, 2)
    | '0' :: _ => (8, 0)
    | _ => (10, 0)
  let digits := (t.drop front).takeWhile fun c => (digit? base c).isSome
  ((digits? base digits).getD 0, t.drop (front + digits.length))

/-! ## Reading -/

/-- The operators with their ranks, longer ones first. -/
def operators : List (Text × Nat) :=
  [("||", 1), ("&&", 2), ("==", 6), ("!=", 6), ("<<", 8), (">>", 8), ("<=", 7), (">=", 7),
   ("|", 3), ("^", 4), ("&", 5), ("<", 7), (">", 7), ("+", 9), ("-", 9), ("*", 10), ("/", 10),
   ("%", 10)].map fun (op, rank) => (op.toList, rank)

/-- The operator at the start of a text, with its rank and the text after it. -/
def operator? (t : Text) : Option (Text × Nat × Text) :=
  operators.findSome? fun (op, rank) => (Text.dropPrefix? op t).map fun rest => (op, rank, rest)

/-- The name and operator of an assignment at the start of a text. -/
def assignment? (t : Text) : Option (Text × Option Text × Text) :=
  let isNameChar (c : Char) : Bool := c.isAlphanum || c == '_'
  let name := t.takeWhile isNameChar
  let rest := Text.trimStart (t.drop name.length)
  if name.isEmpty || name.head?.any Char.isDigit then none
  else
    match rest with
    | '=' :: '=' :: _ => none
    | '=' :: rest => some (name, none, rest)
    | _ =>
      ["<<", ">>", "+", "-", "*", "/", "%", "&", "^", "|"].findSome? fun op =>
        (Text.dropPrefix? (op.toList ++ ['=']) rest).map fun rest => (name, some op.toList, rest)

mutual

/-- A whole sum. -/
def readWhole : Nat → Text → Option (Sum × Text)
  | 0, _ => none
  | fuel + 1, t =>
    match assignment? t.trimStart with
    | some (name, op, rest) => do
      let (a, rest) ← readWhole fuel rest
      return (.assign name op a, rest)
    | none => do
      let (a, rest) ← readRanked fuel 1 t
      match rest.trimStart with
      | '?' :: rest =>
        let (b, rest) ← readWhole fuel rest
        let rest ← Text.dropPrefix? [':'] rest.trimStart
        let (c, rest) ← readWhole fuel rest
        return (.choose a b c, rest)
      | _ => return (a, rest)

/-- A sum of operators from a rank on. -/
def readRanked : Nat → Nat → Text → Option (Sum × Text)
  | 0, _, _ => none
  | fuel + 1, rank, t => do
    let (a, rest) ← readUnary fuel t
    readMore fuel rank a rest

/-- The operators from a rank on that follow a sum. -/
def readMore : Nat → Nat → Sum → Text → Option (Sum × Text)
  | 0, _, _, _ => none
  | fuel + 1, rank, a, t =>
    match operator? t.trimStart with
    | some (op, opRank, rest) =>
      if opRank < rank then some (a, t)
      else do
        let (b, rest) ← readRanked fuel (opRank + 1) rest
        readMore fuel rank (.binary op a b) rest
    | none => some (a, t)

/-- A number, a variable or a sum in brackets, with the operators before it. -/
def readUnary : Nat → Text → Option (Sum × Text)
  | 0, _ => none
  | fuel + 1, t =>
    match t.trimStart with
    | '(' :: rest => do
      let (a, rest) ← readWhole fuel rest
      return (a, ← Text.dropPrefix? [')'] rest.trimStart)
    | c :: rest =>
      if "+-!~".toList.contains c then do
        let (a, rest) ← readUnary fuel rest
        return (.unary c a, rest)
      else
        let run := (c :: rest).takeWhile fun d => d.isAlphanum || d == '_'
        if run.isEmpty then none
        else if c.isDigit then
          let (n, after) := takeNatural (c :: rest)
          some (.number n, after)
        else some (.variable run, (c :: rest).drop run.length)
    | [] => none

end

/-- The sum that a text writes. A blank text is zero. -/
def read (t : Text) : Except SumFault Sum :=
  if t.trim.isEmpty then .ok (.number 0)
  else
    match readWhole (4 * t.length + 4) t with
    | some (s, rest) => if rest.trim.isEmpty then .ok s else .error .notEnded
    | none => .error .noOperand

/-! ## Values -/

/-- One for true and zero for false. -/
def ofBool (b : Bool) : Int := if b then 1 else 0

/-- The values of variables. -/
abbrev Values := List (Text × Text)

/-- The value of an operator. -/
def apply (op : Text) (a b : Int) : Except SumFault Int :=
  match String.ofList op with
  | "+" => .ok (wrap (a + b))
  | "-" => .ok (wrap (a - b))
  | "*" => .ok (wrap (a * b))
  | "/" => if b = 0 then .error .zeroDivisor else .ok (wrap (a.tdiv b))
  | "%" => if b = 0 then .error .zeroDivisor else .ok (wrap (a.tmod b))
  | "<" => .ok (ofBool (a < b))
  | ">" => .ok (ofBool (b < a))
  | "<=" => .ok (ofBool (a ≤ b))
  | ">=" => .ok (ofBool (b ≤ a))
  | "==" => .ok (ofBool (a = b))
  | "!=" => .ok (ofBool (a ≠ b))
  | "<<" => .ok (Int64.ofInt a <<< Int64.ofInt b).toInt
  | ">>" => .ok (Int64.ofInt a >>> Int64.ofInt b).toInt
  | "&" => .ok (Int64.ofInt a &&& Int64.ofInt b).toInt
  | "|" => .ok (Int64.ofInt a ||| Int64.ofInt b).toInt
  | "^" => .ok (Int64.ofInt a ^^^ Int64.ofInt b).toInt
  | _ => .error .noOperand

/-- The number in a variable; one that is missing or empty holds zero. -/
def numberIn (vars : Values) (name : Text) : Except SumFault Int :=
  match (vars.lookup name).getD [] with
  | [] => .ok 0
  | t =>
    match integer? t with
    | some n => .ok (wrap n)
    | none => .error (.badNumber t)

/-- The decimal digits of a number, after its sign. -/
def digitsOf (n : Int) : Text := if n < 0 then '-' :: Text.ofNat n.natAbs else Text.ofNat n.natAbs

/-- The value of a sum, and the values of variables after it. -/
def value : Sum → Values → Except SumFault (Int × Values)
  | .number n, vars => .ok (wrap n, vars)
  | .variable name, vars => (numberIn vars name).map (·, vars)
  | .unary op a, vars => do
    let (x, vars) ← a.value vars
    let result :=
      if op = '-' then wrap (-x) else if op = '!' then ofBool (x = 0)
      else if op = '~' then wrap (-x - 1) else x
    return (result, vars)
  | .binary op a b, vars => do
    let (x, vars) ← a.value vars
    if op = ['&', '&'] && x = 0 then return (0, vars)
    else if op = ['|', '|'] && x ≠ 0 then return (1, vars)
    else
      let (y, vars) ← b.value vars
      if op = ['&', '&'] || op = ['|', '|'] then return (ofBool (y ≠ 0), vars)
      else return (← apply op x y, vars)
  | .choose condition a b, vars => do
    let (x, vars) ← condition.value vars
    if x ≠ 0 then a.value vars else b.value vars
  | .assign name op a, vars => do
    let (y, vars) ← a.value vars
    let result ←
      match op with
      | none => pure y
      | some op => apply op (← numberIn vars name) y
    return (result, (name, digitsOf result) :: vars.filter fun v => v.1 ≠ name)

end Sum

end Shell

end Mend
