import Mend.Decimal.Shortest
import Mend.Json.Value

/-!
# JSON numbers

Reading and writing of numbers. A number without fraction and exponent is whole; when it does not
fit into 64 bits, it is a floating-point number, as is minus zero. A number with more digits than
fit into 64 bits keeps the digits that fit, and the power of ten accounts for the rest. The value
is the significand, scaled by one correctly rounded power of ten; a number too large for that is
refused.

Floating-point numbers are written with the fewest digits that read back, positionally from
`10 ^ -5` up to `10 ^ 16` and with an exponent otherwise.
-/

namespace Mend

namespace JsonNumber

/-- The least number that does not fit into 64 bits. -/
def wordBound : Nat := 2 ^ 64

/-- Digits taken into a significand as long as it fits, how many were taken, and the rest. -/
def takeDigits (significand taken : Nat) : Text → Nat × Nat × Text
  | [] => (significand, taken, [])
  | c :: rest =>
    if c.isDigit then
      let next := significand * 10 + (c.toNat - '0'.toNat)
      if next < wordBound then takeDigits next (taken + 1) rest else (significand, taken, c :: rest)
    else (significand, taken, c :: rest)

/-- A power of ten as a floating-point number. -/
def powerOfTen (k : Nat) : Float := Float.ofScientific 1 false k

/-- Division by `10 ^ k` in steps that a floating-point number can hold, at most `steps + 1` of
them. A significand below `2 ^ 64` is zero after two full steps. -/
def scaleDown (f : Float) : Nat → Nat → Float
  | 0, k => f / powerOfTen k
  | steps + 1, k =>
    if k ≤ 308 then f / powerOfTen k
    else if f == 0.0 then f
    else scaleDown (f / powerOfTen 308) steps (k - 308)

/-- The floating-point number `significand · 10 ^ exponent`, unless it is too large. -/
def scaled? (negative : Bool) (significand : Nat) (exponent : Int) : Option JsonNumber :=
  let f := significand.toUInt64.toFloat
  let value? : Option Float :=
    match exponent with
    | .ofNat k =>
      if 308 < k then (if f == 0.0 then some f else none)
      else if (f * powerOfTen k).isInf then none else some (f * powerOfTen k)
    | .negSucc k => some (scaleDown f 3 (k + 1))
  value?.map fun v => .float (if negative then -v else v)

/-- The greatest exponent that is taken as written. -/
def exponentBound : Nat := 2 ^ 31

/-- The number after the letter of its exponent. -/
def readExponent (negative : Bool) (significand : Nat) (exponent : Int) (t : Text) :
    Option (JsonNumber × Text) :=
  let (down, digits) : Bool × Text :=
    match t with
    | '+' :: r => (false, r)
    | '-' :: r => (true, r)
    | r => (false, r)
  match digits.takeWhile Char.isDigit with
  | [] => none
  | shown =>
    let rest := digits.dropWhile Char.isDigit
    let k := (Text.toNat? shown).getD 0
    if k < exponentBound then
      (scaled? negative significand (if down then exponent - k else exponent + k)).map (·, rest)
    else if significand ≠ 0 && !down then none
    else some (.float (if negative then -0.0 else 0.0), rest)

/-- The number after a significand, at the exponent's letter or at its end. -/
def readTail (negative : Bool) (significand : Nat) (exponent : Int) (t : Text) :
    Option (JsonNumber × Text) :=
  match t with
  | 'e' :: r => readExponent negative significand exponent r
  | 'E' :: r => readExponent negative significand exponent r
  | r => (scaled? negative significand exponent).map (·, r)

/-- The number after its decimal point. -/
def readFraction (negative : Bool) (significand : Nat) (exponent : Int) (t : Text) :
    Option (JsonNumber × Text) :=
  match t with
  | c :: _ =>
    if c.isDigit then
      let (s, taken, rest) := takeDigits significand 0 t
      readTail negative s (exponent - taken) (rest.dropWhile Char.isDigit)
    else none
  | [] => none

/-- The number with the given digits before its point, all of which fit. -/
def whole (negative : Bool) (n : Nat) : JsonNumber :=
  if !negative then .nat n
  else if n = 0 then .float (-0.0)
  else if n ≤ 2 ^ 63 then .neg n
  else .float (-n.toUInt64.toFloat)

/-- The number after its sign. -/
def readUnsigned (negative : Bool) (t : Text) : Option (JsonNumber × Text) :=
  match t with
  | '0' :: r =>
    match r with
    | '.' :: r => readFraction negative 0 0 r
    | 'e' :: r => readExponent negative 0 0 r
    | 'E' :: r => readExponent negative 0 0 r
    | c :: r => if c.isDigit then none else some (whole negative 0, c :: r)
    | [] => some (whole negative 0, [])
  | c :: _ =>
    if c.isDigit then
      let (s, _, rest) := takeDigits 0 0 t
      let dropped := (rest.takeWhile Char.isDigit).length
      match rest.dropWhile Char.isDigit with
      | '.' :: r => readFraction negative s dropped r
      | r =>
        if dropped = 0 && !(r.head? = some 'e' || r.head? = some 'E') then
          some (whole negative s, r)
        else readTail negative s dropped r
    else none
  | [] => none

/-- The number at the start of a text, and the text after it. -/
def read? (t : Text) : Option (JsonNumber × Text) :=
  match t with
  | '-' :: r => readUnsigned true r
  | r => readUnsigned false r

/-- Digits with their exponent, positionally or with the exponent written out. -/
def decimalText (d : Decimal) : Text :=
  let shown := Text.ofNat d.digits
  let point : Int := d.exponent + shown.length
  if 0 ≤ d.exponent && point ≤ 16 then
    shown ++ List.replicate d.exponent.toNat '0' ++ ['.', '0']
  else if 0 < point && point ≤ 16 then
    shown.take point.toNat ++ ['.'] ++ shown.drop point.toNat
  else if -5 < point && point ≤ 0 then
    ['0', '.'] ++ List.replicate (-point).toNat '0' ++ shown
  else
    let power := point - 1
    let exponent := (if power < 0 then ['-'] else ['+']) ++ Text.ofNat power.natAbs
    match shown with
    | [] => []
    | [c] => c :: 'e' :: exponent
    | c :: more => c :: '.' :: more ++ 'e' :: exponent

/-- The text of a number. -/
def write : JsonNumber → Text
  | nat n => Text.ofNat n
  | neg n => '-' :: Text.ofNat n
  | float x =>
    let b := Binary64.ofFloat x
    (if b.negative then ['-'] else []) ++ decimalText (Decimal.shortest b)

end JsonNumber

end Mend
