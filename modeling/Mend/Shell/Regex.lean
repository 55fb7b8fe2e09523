import Mend.Text.Basic

/-!
# Regular expressions on lines

Regular expressions in the two notations of POSIX, basic and extended, over characters that stand
for bytes. `Regex.rests` is the meaning of an expression: what can be left of a text after a match
at its start. `Regex.find?` takes the first place where there is a match, and there the longest.
-/

namespace Mend

namespace Shell

/-- A regular expression. -/
inductive Regex where
  /-- One character with a property. -/
  | one (test : Char → Bool)
  /-- The start of the line. -/
  | lineStart
  /-- The end of the line. -/
  | lineEnd
  /-- The empty text. -/
  | empty
  /-- One expression and then another. -/
  | next (a b : Regex)
  /-- One expression or another. -/
  | either (a b : Regex)
  /-- An expression several times. -/
  | times (a : Regex) (least : Nat) (most : Option Nat)

/-- Whether a character belongs to words. -/
def isWordChar (c : Char) : Bool := c.isAlphanum || c == '_'

/-- The classes of characters that have names. -/
def classNamed? (name : Text) : Option (Char → Bool) :=
  match String.ofList name with
  | "alpha" => some Char.isAlpha
  | "digit" => some Char.isDigit
  | "alnum" => some Char.isAlphanum
  | "upper" => some Char.isUpper
  | "lower" => some Char.isLower
  | "space" => some fun c => c = ' ' || (9 ≤ c.toNat && c.toNat ≤ 13)
  | "blank" => some fun c => c = ' ' || c = '\t'
  | "punct" => some fun c => 33 ≤ c.toNat && c.toNat < 127 && !c.isAlphanum
  | "xdigit" => some fun c => c.isDigit || "abcdefABCDEF".toList.contains c
  | "cntrl" => some fun c => c.toNat < 32 || c.toNat = 127
  | "print" => some fun c => 32 ≤ c.toNat && c.toNat < 127
  | "graph" => some fun c => 33 ≤ c.toNat && c.toNat < 127
  | _ => none

namespace Regex

/-! ## Meaning -/

/-- The rests without repetitions. -/
def distinctRests (rests : List Text) : List Text :=
  rests.foldr (fun t kept => if kept.any fun k => k.length = t.length then kept else t :: kept) []

/-- What can be left after a number of repetitions that is allowed, where `now` can be left after
those so far. -/
def repeated (step : Text → List Text) : Nat → Nat → Option Nat → List Text → List Text
  | 0, _, _, _ => []
  | fuel + 1, least, most, now =>
    let here := if least = 0 then now else []
    if now.isEmpty || most = some 0 then here
    else
      let later := now.flatMap fun t =>
        (step t).filter fun rest => 0 < least || rest.length < t.length
      here ++ repeated step fuel (least - 1) (most.map (· - 1)) (distinctRests later)

/-- What can be left of a text after a match at its start. The text is the end of a line of `size`
characters. -/
def rests (size : Nat) : Regex → Text → List Text
  | .one test, t =>
    match t with
    | c :: rest => if test c then [rest] else []
    | [] => []
  | .lineStart, t => if t.length = size then [t] else []
  | .lineEnd, t => if t.isEmpty then [t] else []
  | .empty, t => [t]
  | .next a b, t => (a.rests size t).flatMap (b.rests size)
  | .either a b, t => a.rests size t ++ b.rests size t
  | .times a least most, t => repeated (a.rests size) (t.length + least + 2) least most [t]

/-- The longest match at the start of a text with what is left, among those that `accepts` takes. -/
def matchHere? (r : Regex) (size : Nat) (accepts : Text → Bool) (t : Text) : Option (Text × Text) :=
  let shortest := ((r.rests size t).filter accepts).foldl (fun (best : Option Text) rest =>
    match best with
    | some b => if rest.length < b.length then some rest else best
    | none => some rest) none
  shortest.map fun rest => (t.take (t.length - rest.length), rest)

/-- The first match in the end of a line that follows `before`, and there the longest, with the
character before what is left and what is left. In `words`, a match stands apart from other
characters of words. -/
def find? (r : Regex) (size : Nat) (words : Bool) :
    Option Char → Text → Option (Text × Option Char × Text)
  | before, t =>
    let apart (c : Option Char) : Bool := !words || !c.any isWordChar
    let found :=
      if apart before then r.matchHere? size (fun rest => apart rest.head?) t else none
    match found, t with
    | some (matched, rest), _ => some (matched, matched.getLast?.or before, rest)
    | none, [] => none
    | none, c :: rest => find? r size words (some c) rest

/-! ## Notation -/

/-- The content of brackets as a test, with the text after them. The first character is taken even
if it is a closing bracket. -/
def readClass : Nat → Bool → Text → Option ((Char → Bool) × Text)
  | 0, _, _ => none
  | fuel + 1, isFirst, t =>
    match t with
    | [] => none
    | '[' :: ':' :: rest => do
      let name := rest.takeWhile Char.isAlpha
      let test ← classNamed? name
      let rest ← Text.dropPrefix? [':', ']'] (rest.drop name.length)
      let (more, rest) ← readClass fuel false rest
      return (fun c => test c || more c, rest)
    | a :: rest =>
      if a = ']' && !isFirst then some (fun _ => false, rest)
      else
        match rest with
        | '-' :: b :: after =>
          if b = ']' then do
            let (more, rest) ← readClass fuel false rest
            return (fun c => c = a || more c, rest)
          else do
            let (more, rest) ← readClass fuel false after
            return (fun c => (a ≤ c && c ≤ b) || more c, rest)
        | _ => do
          let (more, rest) ← readClass fuel false rest
          return (fun c => c = a || more c, rest)

/-- The bounds of a repetition before a closing text. -/
def readBounds? (close : Text) (t : Text) : Option (Nat × Option Nat × Text) := do
  let digits := t.takeWhile Char.isDigit
  let least := (Text.toNat? digits).getD 0
  match t.drop digits.length with
  | ',' :: rest =>
    let digits := rest.takeWhile Char.isDigit
    let rest ← Text.dropPrefix? close (rest.drop digits.length)
    return (least, Text.toNat? digits, rest)
  | rest =>
    let rest ← Text.dropPrefix? close rest
    return (least, some least, rest)

/-- The sign at the start of a text that is special in a notation, without the backslash that one of
the notations puts before it. -/
def sign? (extended : Bool) (t : Text) : Option (Char × Text) :=
  match t with
  | '\\' :: c :: rest =>
    if !extended && "()|+?\x7b\x7d".toList.contains c then some (c, rest) else none
  | c :: rest =>
    if c = '*' || (extended && "()|+?\x7b\x7d".toList.contains c) then some (c, rest) else none
  | [] => none

/-- An expression with the repetitions that are written after it. -/
def readTimes (extended : Bool) : Nat → Regex → Text → Option (Regex × Text)
  | 0, r, t => some (r, t)
  | fuel + 1, r, t =>
    match sign? extended t with
    | some ('*', rest) => readTimes extended fuel (.times r 0 none) rest
    | some ('+', rest) => readTimes extended fuel (.times r 1 none) rest
    | some ('?', rest) => readTimes extended fuel (.times r 0 (some 1)) rest
    | some ('\x7b', rest) => do
      let (least, most, rest) ← readBounds? (if extended then ['\x7d'] else ['\\', '\x7d']) rest
      readTimes extended fuel (.times r least most) rest
    | _ => some (r, t)

/-- The test for a backslash and a letter. -/
def escaped (c : Char) : Char → Bool :=
  let isSpace (d : Char) : Bool := d = ' ' || (9 ≤ d.toNat && d.toNat ≤ 13)
  if c = 'w' then isWordChar
  else if c = 'W' then fun d => !isWordChar d
  else if c = 's' then isSpace
  else if c = 'S' then fun d => !isSpace d
  else fun d => d = c

mutual

/-- Expressions with bars between them. -/
def readEither (extended : Bool) : Nat → Text → Option (Regex × Text)
  | 0, _ => none
  | fuel + 1, t => do
    let (a, rest) ← readNext extended fuel true t
    match sign? extended rest with
    | some ('|', rest) =>
      let (b, rest) ← readEither extended fuel rest
      return (.either a b, rest)
    | _ => return (a, rest)

/-- Expressions one after the other. -/
def readNext (extended : Bool) : Nat → Bool → Text → Option (Regex × Text)
  | 0, _, _ => none
  | fuel + 1, isFirst, t =>
    let go (a : Regex) (rest : Text) : Option (Regex × Text) := do
      let (a, rest) ← readTimes extended rest.length a rest
      let (b, rest) ← readNext extended fuel false rest
      return (.next a b, rest)
    match sign? extended t with
    | some ('(', rest) => do
      let (a, rest) ← readEither extended fuel rest
      match sign? extended rest with
      | some (')', rest) => go a rest
      | _ => none
    | some (c, rest) =>
      if c = '|' || c = ')' then some (.empty, t)
      else if isFirst then go (.one (· = c)) rest
      else none
    | none =>
      match t with
      | [] => some (.empty, [])
      | '^' :: rest =>
        if isFirst || extended then do
          let (b, rest) ← readNext extended fuel isFirst rest
          return (.next .lineStart b, rest)
        else go (.one (· = '^')) rest
      | '$' :: rest =>
        let closes : Bool :=
          match sign? extended rest with
          | some (c, _) => c = '|' || c = ')'
          | none => rest.isEmpty
        if closes || extended then go .lineEnd rest else go (.one (· = '$')) rest
      | '.' :: rest => go (.one fun _ => true) rest
      | '[' :: '^' :: rest => do
        let (test, rest) ← readClass rest.length true rest
        go (.one fun c => !test c) rest
      | '[' :: rest => do
        let (test, rest) ← readClass rest.length true rest
        go (.one test) rest
      | '\\' :: c :: rest => go (.one (escaped c)) rest
      | c :: rest => if c = '\\' then none else go (.one (· = c)) rest

end

/-- The expression that a text writes. -/
def read? (extended : Bool) (t : Text) : Option Regex :=
  match readEither extended (2 * t.length + 3) t with
  | some (r, []) => some r
  | _ => none

/-- The expression for one text. -/
def ofText : Text → Regex
  | [] => .empty
  | c :: rest => .next (.one (· = c)) (ofText rest)

/-- The expression that does not tell small letters from capital ones. -/
def ignoringCase : Regex → Regex
  | .one test => .one fun c => test c || test c.toLower || test c.toUpper
  | .next a b => .next a.ignoringCase b.ignoringCase
  | .either a b => .either a.ignoringCase b.ignoringCase
  | .times a least most => .times a.ignoringCase least most
  | r => r

/-- The expression for a whole line. -/
def wholeLine (r : Regex) : Regex := .next .lineStart (.next r .lineEnd)

end Regex

end Shell

end Mend
