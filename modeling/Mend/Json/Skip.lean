import Mend.Json.Fault
import Mend.Json.Reader

/-!
# Passing over JSON

A reader of records passes over values without making them (`Json.skipValue`), and stops with a
reason where a text is not JSON. What is passed over is held to less than what is read: numbers may
have any size, texts may hold halves of surrogate pairs, and arrays and objects may nest to any
depth.

Values that are read are passed over first, in the strict way, which finds the reason when they
cannot be read.
-/

namespace Mend

namespace Json

/-- How much is asked of texts and numbers. -/
inductive Strictness where
  /-- They are passed over. -/
  | loose
  /-- They are read. -/
  | strict
  deriving DecidableEq, Repr

/-- What a reader that stops at a place has to tell. -/
abbrev Skipped := Except JsonStop Text

/-! ## Words -/

/-- The text after the rest of a word. -/
def skipWord : Text → Text → Skipped
  | [], t => .ok t
  | _ :: _, [] => .error ⟨.endOfValue, [], 0⟩
  | w :: word, c :: rest =>
    if w = c then skipWord word rest else .error (.ahead .unknownWord (c :: rest))

/-! ## Text values -/

/-- The code of four hexadecimal digits, which take four bytes, and the text after them. -/
def skipCode (t : Text) : Except JsonStop (Nat × Text) :=
  let bad : Except JsonStop (Nat × Text) :=
    .error (if t.byteLength < 4 then ⟨.endOfText, [], 0⟩ else ⟨.badEscape, t, 4⟩)
  match t with
  | a :: b :: c :: d :: rest =>
    match hex4? a b c d with
    | some n => .ok (n, rest)
    | none => bad
  | _ => bad

/-- The text after the second half of a surrogate pair. -/
def skipLow : Text → Skipped
  | '\\' :: 'u' :: rest => do
    let (n, rest) ← skipCode rest
    if isLowSurrogate n then .ok rest else .error ⟨.halfPair, rest, 0⟩
  | [] => .error ⟨.endOfText, [], 0⟩
  | ['\\'] => .error ⟨.endOfText, [], 0⟩
  | '\\' :: rest => .error (.ahead .openPair rest)
  | rest => .error (.ahead .openPair rest)

/-- The text after an escape, without its backslash. -/
def skipEscape (how : Strictness) : Text → Skipped
  | [] => .error ⟨.endOfText, [], 0⟩
  | 'u' :: rest => do
    let (n, rest) ← skipCode rest
    match how with
    | .loose => .ok rest
    | .strict =>
      if isHighSurrogate n then skipLow rest
      else if isLowSurrogate n then .error ⟨.halfPair, rest, 0⟩
      else .ok rest
  | c :: rest =>
    match escape? c with
    | some _ => .ok rest
    | none => .error (.ahead .badEscape (c :: rest))

/-- The text after the closing quote of a text value; every step takes at least one character. -/
def skipTextFrom (how : Strictness) : Nat → Text → Skipped
  | 0, t => .error ⟨.endOfText, t, 0⟩
  | fuel + 1, t =>
    match t with
    | [] => .error ⟨.endOfText, [], 0⟩
    | '"' :: rest => .ok rest
    | '\\' :: rest =>
      match skipEscape how rest with
      | .ok rest => skipTextFrom how fuel rest
      | .error s => .error s
    | c :: rest =>
      if 0x20 ≤ c.toNat then skipTextFrom how fuel rest
      else
        match how with
        | .loose => .error ⟨.control, c :: rest, 0⟩
        | .strict => .error (.ahead .control (c :: rest))

/-- The text after the closing quote of a text value. -/
def skipText (how : Strictness) (t : Text) : Skipped := skipTextFrom how (t.length + 1) t

/-! ## Numbers -/

/-- The stop at a character that is no digit where one must be. -/
def noDigit (how : Strictness) : Text → JsonStop
  | [] => ⟨if how = .strict then .endOfValue else .badNumber, [], 0⟩
  | t => .ahead .badNumber t

/-- The text after a non-empty run of digits. -/
def skipDigits (how : Strictness) (t : Text) : Skipped :=
  if t.head?.any Char.isDigit then .ok (t.dropWhile Char.isDigit) else .error (noDigit how t)

/-- The text after the exponent of a number, if there is one. -/
def skipExponent (how : Strictness) (t : Text) : Skipped :=
  match t with
  | c :: rest =>
    if c = 'e' || c = 'E' then
      match rest with
      | '+' :: digits => skipDigits how digits
      | '-' :: digits => skipDigits how digits
      | digits => skipDigits how digits
    else .ok t
  | [] => .ok t

/-- The text after the fraction and the exponent of a number, if there are any. -/
def skipFraction (how : Strictness) : Text → Skipped
  | '.' :: rest => do
    let rest ← skipDigits how rest
    skipExponent how rest
  | t => skipExponent how t

/-- The text after a number without its sign. -/
def skipUnsigned (how : Strictness) : Text → Skipped
  | '0' :: rest =>
    if rest.head?.any Char.isDigit then .error (.ahead .badNumber rest) else skipFraction how rest
  | t => do
    let rest ← skipDigits how t
    skipFraction how rest

/-- The text after a number. -/
def skipNumber (how : Strictness) : Text → Skipped
  | '-' :: rest => skipUnsigned how rest
  | t => skipUnsigned how t

/-- Whether a number starts with a character. -/
def startsNumber (c : Char) : Bool := c == '-' || c.isDigit

/-! ## Values -/

mutual

/-- The text after a value. -/
def skipValue : Nat → Text → Skipped
  | 0, t => .error ⟨.endOfValue, t, 0⟩
  | fuel + 1, t =>
    match skipGap t with
    | [] => .error ⟨.endOfValue, [], 0⟩
    | 'n' :: rest => skipWord "ull".toList rest
    | 't' :: rest => skipWord "rue".toList rest
    | 'f' :: rest => skipWord "alse".toList rest
    | '"' :: rest => skipText .loose rest
    | '[' :: rest =>
      match skipGap rest with
      | [] => .error ⟨.endOfArray, [], 0⟩
      | ']' :: after => .ok after
      | items => skipItems fuel items
    | '\x7b' :: rest =>
      match skipGap rest with
      | '\x7d' :: after => .ok after
      | members => skipMembers fuel members
    | c :: rest =>
      if startsNumber c then skipNumber .loose (c :: rest) else .error (.ahead .noValue (c :: rest))

/-- The text after the bracket that closes an array. -/
def skipItems : Nat → Text → Skipped
  | 0, t => .error ⟨.endOfArray, t, 0⟩
  | fuel + 1, t =>
    match skipValue fuel t with
    | .error s => .error s
    | .ok after =>
      match skipGap after with
      | [] => .error ⟨.endOfArray, [], 0⟩
      | ']' :: rest => .ok rest
      | ',' :: rest => skipItems fuel rest
      | rest => .error (.ahead .noItemEnd rest)

/-- The text after the brace that closes an object. -/
def skipMembers : Nat → Text → Skipped
  | 0, t => .error ⟨.endOfObject, t, 0⟩
  | fuel + 1, t =>
    match skipGap t with
    | [] => .error ⟨.endOfObject, [], 0⟩
    | '"' :: rest =>
      match skipText .loose rest with
      | .error s => .error s
      | .ok after =>
        match skipGap after with
        | [] => .error ⟨.endOfObject, [], 0⟩
        | ':' :: rest =>
          match skipValue fuel rest with
          | .error s => .error s
          | .ok after =>
            match skipGap after with
            | [] => .error ⟨.endOfObject, [], 0⟩
            | '\x7d' :: rest => .ok rest
            | ',' :: rest => skipMembers fuel rest
            | rest => .error (.ahead .noMemberEnd rest)
        | rest => .error (.ahead .noColon rest)
    | rest => .error (.ahead .nameNotText rest)

end

end Json

end Mend
