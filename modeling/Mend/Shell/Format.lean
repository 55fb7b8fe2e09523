import Mend.Shell.Machine
import Mend.Shell.Sum

/-!
# Formatted output of programs

The formats of `printf` and the escapes of `echo`. A format is read into parts, and the parts are
gone through as long as arguments are left.
-/

namespace Mend

namespace Shell

namespace Format

/-- Which escapes there are: those of the shell itself, and more of them in programs. -/
inductive Dialect where
  /-- The shell. -/
  | shell
  /-- A program. -/
  | program
  deriving DecidableEq, Repr

/-- The characters that letters after a backslash write. -/
def letters : List (Char × Nat) :=
  [('a', 7), ('b', 8), ('f', 12), ('n', 10), ('r', 13), ('t', 9), ('v', 11), ('\\', 92)]

/-- The number that up to `most` digits at the start of a text write, with the text after them. -/
def takeDigits (base most : Nat) (t : Octets) : Nat × Octets :=
  let digits := (t.take most).takeWhile fun c => (Sum.digit? base c).isSome
  ((Sum.digits? base digits).getD 0, t.drop digits.length)

/-- What the escape after a backslash writes, with the text after it. -/
def escape (dialect : Dialect) (t : Octets) : Octets × Octets :=
  let byte (n : Nat) : Octets := [Char.ofNat (n % 256)]
  match t with
  | [] => (['\\'], [])
  | c :: rest =>
    match letters.lookup c with
    | some n => (byte n, rest)
    | none =>
      if (Sum.digit? 8 c).isSome then
        let (n, rest) := takeDigits 8 3 t
        (byte n, rest)
      else if c = 'e' then (byte 27, rest)
      else if dialect = .shell then (['\\'], t)
      else if c = '"' then (['"'], rest)
      else if c = 'x' && rest.head?.any fun d => (Sum.digit? 16 d).isSome then
        let (n, rest) := takeDigits 16 2 rest
        (byte n, rest)
      else (['\\'], t)

/-- A text with its escapes written out, and whether it asks for an end of all output. A zero starts
an octal number of up to three more digits. -/
def unescape (dialect : Dialect) : Nat → Octets → Octets × Bool
  | 0, t => (t, false)
  | fuel + 1, t =>
    match t with
    | [] => ([], false)
    | '\\' :: 'c' :: _ => ([], true)
    | '\\' :: '0' :: rest =>
      let (n, rest) := takeDigits 8 3 rest
      let (more, ends) := unescape dialect fuel rest
      (Char.ofNat (n % 256) :: more, ends)
    | '\\' :: rest =>
      let (written, rest) := escape dialect rest
      let (more, ends) := unescape dialect fuel rest
      (written ++ more, ends)
    | c :: rest =>
      let (more, ends) := unescape dialect fuel rest
      (c :: more, ends)

/-- What `echo` writes for arguments: the texts with spaces between them, with escapes if
`escapes`, and a line feed unless that is left out or an escape ends the output. -/
def echo (dialect : Dialect) (escapes lineFeed : Bool) (args : List Octets) : Octets :=
  let joined := Text.joinWith [' '] args
  let (written, ends) :=
    if escapes then unescape dialect (joined.length + 1) joined else (joined, false)
  if lineFeed && !ends then written ++ ['\n'] else written

/-- How an argument is written. -/
structure Directive where
  /-- The signs before the width. -/
  flags : Text
  /-- The least number of characters. -/
  width : Nat
  /-- The number of characters or digits. -/
  places : Option Nat
  /-- The letter that tells what the argument is. -/
  letter : Char
  deriving DecidableEq, Repr

/-- A part of a format. -/
inductive Part where
  /-- A text. -/
  | text (t : Octets)
  /-- An argument. -/
  | argument (d : Directive)
  deriving DecidableEq, Repr

/-- The parts of a format. -/
def parts (dialect : Dialect) : Nat → Octets → List Part
  | 0, _ => []
  | fuel + 1, t =>
    match t with
    | [] => []
    | '%' :: '%' :: rest => .text ['%'] :: parts dialect fuel rest
    | '%' :: rest =>
      let flags := rest.takeWhile fun c => "-+ #0".toList.contains c
      let rest := rest.drop flags.length
      let width := rest.takeWhile Char.isDigit
      let rest := rest.drop width.length
      let hasPlaces := rest.head? = some '.'
      let rest := if hasPlaces then rest.drop 1 else rest
      let places := if hasPlaces then rest.takeWhile Char.isDigit else []
      match rest.drop places.length with
      | letter :: rest =>
        .argument ⟨flags, (Text.toNat? width).getD 0,
          if hasPlaces then some ((Text.toNat? places).getD 0) else none, letter⟩ ::
          parts dialect fuel rest
      | [] => [.text ('%' :: flags ++ width)]
    | '\\' :: rest =>
      let (written, rest) := escape dialect rest
      .text written :: parts dialect fuel rest
    | c :: rest =>
      let run := rest.takeWhile fun d => d ≠ '%' && d ≠ '\\'
      .text (c :: run) :: parts dialect fuel (rest.drop run.length)

/-- A text brought to the width of a directive. -/
def pad (d : Directive) (t : Octets) : Octets :=
  let fill := List.replicate (d.width - t.length) ' '
  if d.flags.contains '-' then t ++ fill else fill ++ t

/-- A number brought to the width and digits of a directive. -/
def number (d : Directive) (n : Int) : Octets :=
  let magnitude : Nat :=
    if d.letter = 'd' || d.letter = 'i' then n.natAbs else (n % 2 ^ 64).toNat
  let base := if d.letter = 'o' then 8 else if d.letter = 'x' || d.letter = 'X' then 16 else 10
  let digits := Nat.toDigits base magnitude
  let digits := if d.letter = 'X' then digits.map Char.toUpper else digits
  let digits := List.replicate (d.places.getD 1 - digits.length) '0' ++ digits
  let isSigned := d.letter = 'd' || d.letter = 'i'
  let front : Text :=
    if isSigned && n < 0 then ['-']
    else if isSigned && d.flags.contains '+' then ['+']
    else if isSigned && d.flags.contains ' ' then [' ']
    else if d.flags.contains '#' && d.letter = 'x' && magnitude ≠ 0 then ['0', 'x']
    else if d.flags.contains '#' && d.letter = 'X' && magnitude ≠ 0 then ['0', 'X']
    else if d.flags.contains '#' && d.letter = 'o' && digits.head? ≠ some '0' then ['0']
    else []
  if d.flags.contains '0' && !d.flags.contains '-' && d.places.isNone then
    front ++ List.replicate (d.width - front.length - digits.length) '0' ++ digits
  else pad d (front ++ digits)

/-- The number that an argument writes: a quote stands before a character whose number is meant. -/
def argumentNumber? (t : Octets) : Option Int :=
  match t with
  | [] => some 0
  | '\'' :: c :: _ => some c.toNat
  | '"' :: c :: _ => some c.toNat
  | _ => Sum.integer? t

/-- What is written so far. -/
structure Written where
  /-- The output. -/
  output : Octets := []
  /-- The arguments that are left. -/
  args : List Octets
  /-- The arguments that should have been numbers. -/
  bad : List Octets := []
  /-- Whether an argument was used. -/
  used : Bool := false
  /-- Whether the output is ended. -/
  ended : Bool := false

/-- The output after one more part. -/
def writePart (dialect : Dialect) (w : Written) (part : Part) : Written :=
  if w.ended then w
  else
    match part with
    | .text t => { w with output := w.output ++ t }
    | .argument d =>
      let arg := w.args.head?.getD []
      let w := { w with args := w.args.drop 1, used := true }
      let cut (t : Octets) : Octets := d.places.elim t t.take
      if d.letter = 's' then { w with output := w.output ++ pad d (cut arg) }
      else if d.letter = 'c' then { w with output := w.output ++ pad d (arg.take 1) }
      else if d.letter = 'b' then
        let (t, ended) := unescape dialect (arg.length + 1) arg
        { w with output := w.output ++ pad d (cut t), ended }
      else
        match argumentNumber? arg with
        | some n => { w with output := w.output ++ number d n }
        | none => { w with output := w.output ++ number d 0, bad := w.bad ++ [arg] }

/-- The parts, gone through until no arguments are left. -/
def writeAll (dialect : Dialect) (parts : List Part) : Nat → Written → Written
  | 0, w => w
  | fuel + 1, w =>
    let w := parts.foldl (writePart dialect) { w with used := false }
    if w.used && !w.args.isEmpty && !w.ended then writeAll dialect parts fuel w else w

/-- What a format writes for arguments. -/
def write (dialect : Dialect) (format : Octets) (args : List Octets) : Written :=
  writeAll dialect (parts dialect (format.length + 1) format) (args.length + 1) { args }

end Format

end Shell

end Mend
