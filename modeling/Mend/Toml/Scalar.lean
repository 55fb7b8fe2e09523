import Mend.Json.Reader
import Mend.Toml.Value

/-!
# Numbers, truth values and dates in TOML

A scalar without quotes is read from the whole run of characters that it stands in: `true` and
`false`, whole numbers (decimal, or with `0x`, `0o` and `0b` in front), floating-point numbers, and
dates and times. Single underscores may stand between digits, and a decimal number has no needless
zero in front.
-/

namespace Mend

namespace Toml

/-- A character of a scalar without quotes. -/
def isScalarChar (c : Char) : Bool :=
  c.isAlphanum || c == '_' || c == '+' || c == '-' || c == '.' || c == ':'

/-- Digits without the underscores between them; `digit` is whether the last character was a
digit. -/
def plainDigits? (isDigit : Char → Bool) (digit : Bool) : Text → Option Text
  | [] => if digit then some [] else none
  | c :: rest =>
    if c = '_' then if digit then plainDigits? isDigit false rest else none
    else if isDigit c then (plainDigits? isDigit true rest).map (c :: ·)
    else none

/-- The number that digits write in a base. -/
def ofDigits (base : Nat) (digits : Text) : Nat :=
  digits.foldl (fun n c => n * base + (Json.hexDigit? c).getD 0) 0

/-- A digit of a base. -/
def isDigitOf (base : Nat) (c : Char) : Bool := (Json.hexDigit? c).any (· < base)

/-- The number that digits with underscores write in a base. -/
def digitsOf? (base : Nat) (t : Text) : Option Nat :=
  (plainDigits? (isDigitOf base) false t).map (ofDigits base)

/-- Decimal digits without a needless zero in front, without their underscores. -/
def decimal? (t : Text) : Option Text :=
  match plainDigits? Char.isDigit false t with
  | some ('0' :: _ :: _) => none
  | other => other

/-- The numbers from `-2^127` to less than `2^128`; no others are read. -/
def holds (n : Int) : Bool := -(2 ^ 127) ≤ n && n < 2 ^ 128

/-- The whole number that a text writes. -/
def int? (t : Text) : Option Int :=
  let value? : Option Int :=
    match t with
    | '0' :: 'x' :: digits => (digitsOf? 16 digits).map Int.ofNat
    | '0' :: 'o' :: digits => (digitsOf? 8 digits).map Int.ofNat
    | '0' :: 'b' :: digits => (digitsOf? 2 digits).map Int.ofNat
    | '+' :: digits => (decimal? digits).map fun d => (ofDigits 10 d : Int)
    | '-' :: digits => (decimal? digits).map fun d => -(ofDigits 10 d : Int)
    | digits => (decimal? digits).map fun d => (ofDigits 10 d : Int)
  value?.filter holds

/-! ## Floating-point numbers -/

/-- The least number that rounds to no finite double. -/
def floatBound : Nat := 2 ^ 1024 - 2 ^ 970

/-- Whether `significand · 10 ^ exponent` rounds to a finite double. -/
def isFinite (significand : Nat) (exponent : Int) : Bool :=
  let digits := (Nat.toDigits 10 significand).length
  if significand = 0 || exponent + digits < 300 then true
  else if 310 < exponent + digits then false
  else
    match exponent with
    | .ofNat k => significand * 10 ^ k < floatBound
    | .negSucc k => significand < floatBound * 10 ^ (k + 1)

/-- The exponent after its letter. -/
def exponent? : Text → Option Int
  | '+' :: digits => (digitsOf? 10 digits).map Int.ofNat
  | '-' :: digits => (digitsOf? 10 digits).map fun n => -(n : Int)
  | digits => (digitsOf? 10 digits).map Int.ofNat

/-- Whether a text without its sign writes a finite number with a point or an exponent. -/
def isFraction (t : Text) : Bool :=
  let isLetter (c : Char) : Bool := c == 'e' || c == 'E'
  let front := t.takeWhile fun c => !isLetter c
  let exponent? : Option Int :=
    match t.dropWhile fun c => !isLetter c with
    | [] => some 0
    | _ :: digits => exponent? digits
  match Text.cutFirst? '.' front, exponent? with
  | some (whole, part), some e =>
    match decimal? whole, plainDigits? Char.isDigit false part with
    | some whole, some part => isFinite (ofDigits 10 (whole ++ part)) (e - part.length)
    | _, _ => false
  | none, some e =>
    match decimal? front with
    | some whole => front.length < t.length && isFinite (ofDigits 10 whole) e
    | none => false
  | _, none => false

/-- The sign in front of a text, if any, and the text without it. -/
def dropSign : Text → Text
  | '+' :: rest => rest
  | '-' :: rest => rest
  | t => t

/-- Whether a text writes a floating-point number. -/
def isFloat (t : Text) : Bool :=
  let plain := dropSign t
  plain = "inf".toList || plain = "nan".toList || isFraction plain

/-! ## Dates and times -/

/-- A number of exactly `n` digits from `low` to `high` in front of a text, and the text after
it. -/
def twoDigits? (n low high : Nat) (t : Text) : Option (Nat × Text) :=
  match Text.toNat? (t.take n) with
  | some v => if (t.take n).length = n && low ≤ v && v ≤ high then some (v, t.drop n) else none
  | none => none

/-- The number of days in a month. -/
def daysIn (year month : Nat) : Nat :=
  if month = 2 then
    if year % 4 = 0 && (year % 100 ≠ 0 || year % 400 = 0) then 29 else 28
  else if month = 4 || month = 6 || month = 9 || month = 11 then 30
  else 31

/-- The text after a date. -/
def dropDate? (t : Text) : Option Text := do
  let (year, t) ← twoDigits? 4 0 9999 t
  let t ← Text.dropPrefix? ['-'] t
  let (month, t) ← twoDigits? 2 1 12 t
  let t ← Text.dropPrefix? ['-'] t
  let (_, t) ← twoDigits? 2 1 (daysIn year month) t
  return t

/-- The text after seconds and their fraction, which may be missing. -/
def dropSeconds? : Text → Option Text
  | ':' :: t => do
    let (_, t) ← twoDigits? 2 0 60 t
    match t with
    | '.' :: part =>
      if (part.takeWhile Char.isDigit).isEmpty then none else some (part.dropWhile Char.isDigit)
    | other => some other
  | t => some t

/-- The text after a time of day. -/
def dropTime? (t : Text) : Option Text := do
  let (_, t) ← twoDigits? 2 0 23 t
  let t ← Text.dropPrefix? [':'] t
  let (_, t) ← twoDigits? 2 0 59 t
  dropSeconds? t

/-- Whether a text writes an offset from universal time, or nothing. -/
def isOffset : Text → Bool
  | [] => true
  | ['Z'] => true
  | ['z'] => true
  | c :: t =>
    (c == '+' || c == '-') &&
      ((do
        let (_, t) ← twoDigits? 2 0 23 t
        let t ← Text.dropPrefix? [':'] t
        let (_, t) ← twoDigits? 2 0 59 t
        return t : Option Text) == some [])

/-- Whether a text writes a date, a time or both. -/
def isMoment (t : Text) : Bool :=
  match dropDate? t with
  | some [] => true
  | some (c :: time) =>
    (c == 'T' || c == 't' || c == ' ') && (dropTime? time).any isOffset
  | none => dropTime? t == some []

/-! ## Scalars -/

/-- The value that a text without quotes writes. -/
def scalar? (t : Text) : Option Toml :=
  if t = "true".toList then some (.bool true)
  else if t = "false".toList then some (.bool false)
  else
    match int? t with
    | some n => some (.int n)
    | none =>
      if isFloat t then some (.float (t.filter (· ≠ '_')))
      else if isMoment t then some (.moment t)
      else none

/-- Whether a time of day follows a date and one space. -/
def timeFollows (date : Text) : Text → Bool
  | ' ' :: a :: b :: ':' :: _ => dropDate? date == some [] && a.isDigit && b.isDigit
  | _ => false

/-- The scalar at the start of a text, and the text after it. -/
def readScalar (t : Text) : Option (Toml × Text) :=
  let first := t.takeWhile isScalarChar
  let rest := t.dropWhile isScalarChar
  if timeFollows first rest then
    let time := (rest.drop 1).takeWhile isScalarChar
    (scalar? (first ++ ' ' :: time)).map (·, (rest.drop 1).dropWhile isScalarChar)
  else (scalar? first).map (·, rest)

end Toml

end Mend
