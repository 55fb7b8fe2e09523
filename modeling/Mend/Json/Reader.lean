import Mend.Json.Number

/-!
# Reading JSON

`Json.read?` reads a text that is one JSON value with nothing but white space around it. It is
strict: no comments, no trailing commas, no control characters inside texts, and escapes of
surrogates in pairs only. Values nest at most `maxDepth` levels.

The reader is a recursive descent; its fuel is computed from the length of the text, since every
two steps take at least one character.
-/

namespace Mend

namespace Json

/-- How deep arrays and objects may nest. -/
def maxDepth : Nat := 127

/-- White space between tokens. -/
def isGap (c : Char) : Bool := c == ' ' || c == '\n' || c == '\t' || c == '\r'

/-- The text after white space. -/
def skipGap (t : Text) : Text := t.dropWhile isGap

/-- The value of a hexadecimal digit. -/
def hexDigit? (c : Char) : Option Nat :=
  if '0' ≤ c && c ≤ '9' then some (c.toNat - '0'.toNat)
  else if 'a' ≤ c && c ≤ 'f' then some (c.toNat - 'a'.toNat + 10)
  else if 'A' ≤ c && c ≤ 'F' then some (c.toNat - 'A'.toNat + 10)
  else none

/-- The value of four hexadecimal digits. -/
def hex4? (a b c d : Char) : Option Nat := do
  let a ← hexDigit? a
  let b ← hexDigit? b
  let c ← hexDigit? c
  let d ← hexDigit? d
  return ((a * 16 + b) * 16 + c) * 16 + d

/-- The character that a single-letter escape stands for. -/
def escape? (c : Char) : Option Char :=
  match c with
  | '"' => some '"'
  | '\\' => some '\\'
  | '/' => some '/'
  | 'b' => some (Char.ofNat 8)
  | 'f' => some (Char.ofNat 12)
  | 'n' => some '\n'
  | 'r' => some '\r'
  | 't' => some '\t'
  | _ => none

/-- The first half of a surrogate pair. -/
def isHighSurrogate (n : Nat) : Bool := 0xD800 ≤ n && n < 0xDC00

/-- The second half of a surrogate pair. -/
def isLowSurrogate (n : Nat) : Bool := 0xDC00 ≤ n && n < 0xE000

/-- The rest of a text value after its opening quote, and what stands after its closing quote. -/
def readText : Text → Option (Text × Text)
  | [] => none
  | '"' :: rest => some ([], rest)
  | '\\' :: 'u' :: a :: b :: c :: d :: '\\' :: 'u' :: e :: f :: g :: h :: rest => do
    let n ← hex4? a b c d
    -- two escapes are one character only as the two halves of a pair
    if isHighSurrogate n then
      let m ← hex4? e f g h
      if isLowSurrogate m then
        let (more, after) ← readText rest
        return (Char.ofNat (0x10000 + (n - 0xD800) * 0x400 + (m - 0xDC00)) :: more, after)
      else none
    else if isLowSurrogate n then none
    else
      let (more, after) ← readText ('\\' :: 'u' :: e :: f :: g :: h :: rest)
      return (Char.ofNat n :: more, after)
  | '\\' :: 'u' :: a :: b :: c :: d :: rest => do
    let n ← hex4? a b c d
    if isHighSurrogate n || isLowSurrogate n then none
    else
      let (more, after) ← readText rest
      return (Char.ofNat n :: more, after)
  | '\\' :: c :: rest => do
    let c ← escape? c
    let (more, after) ← readText rest
    return (c :: more, after)
  | c :: rest =>
    if c.toNat < 0x20 || c == '\\' then none
    else do
      let (more, after) ← readText rest
      return (c :: more, after)

mutual

/-- The value at the start of a text, after white space, and the text after it. -/
def readValue : Nat → Nat → Text → Option (Json × Text)
  | 0, _, _ => none
  | fuel + 1, depth, t =>
    match skipGap t with
    | 'n' :: 'u' :: 'l' :: 'l' :: rest => some (null, rest)
    | 't' :: 'r' :: 'u' :: 'e' :: rest => some (bool true, rest)
    | 'f' :: 'a' :: 'l' :: 's' :: 'e' :: rest => some (bool false, rest)
    | '"' :: rest => (readText rest).map fun (s, after) => (text s, after)
    | '[' :: rest =>
      match depth with
      | 0 => none
      | depth + 1 =>
        match skipGap rest with
        | ']' :: after => some (array [], after)
        | items => (readItems fuel depth items).map fun (vs, after) => (array vs, after)
    | '\x7b' :: rest =>
      match depth with
      | 0 => none
      | depth + 1 =>
        match skipGap rest with
        | '\x7d' :: after => some (object [], after)
        | members => (readMembers fuel depth members).map fun (ms, after) => (ofMembers ms, after)
    -- whatever starts like no other value has to be a number
    | other => (JsonNumber.read? other).map fun (n, after) => (number n, after)

/-- The values up to the bracket that closes an array, and the text after it. -/
def readItems : Nat → Nat → Text → Option (List Json × Text)
  | 0, _, _ => none
  | fuel + 1, depth, t => do
    let (value, after) ← readValue fuel depth t
    match skipGap after with
    | ']' :: rest => return ([value], rest)
    | ',' :: rest =>
      let (values, after) ← readItems fuel depth rest
      return (value :: values, after)
    | _ => none

/-- The members up to the brace that closes an object, and the text after it. -/
def readMembers : Nat → Nat → Text → Option (List (Text × Json) × Text)
  | 0, _, _ => none
  | fuel + 1, depth, t =>
    match skipGap t with
    | '"' :: rest => do
      let (name, after) ← readText rest
      match skipGap after with
      | ':' :: after =>
        let (value, after) ← readValue fuel depth after
        match skipGap after with
        | '\x7d' :: rest => return ([(name, value)], rest)
        | ',' :: rest =>
          let (members, after) ← readMembers fuel depth rest
          return ((name, value) :: members, after)
        | _ => none
      | _ => none
    | _ => none

end

/-- The value that a text holds, with white space around it and nothing else. -/
def read? (t : Text) : Option Json :=
  match readValue (2 * t.length + 2) maxDepth t with
  | some (value, rest) => if (skipGap rest).isEmpty then some value else none
  | none => none

end Json

end Mend
