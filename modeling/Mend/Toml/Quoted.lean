import Mend.Json.Reader
import Mend.Toml.Value

/-!
# Quoted texts in TOML

A TOML text has four written forms: basic (`"a"`) with escapes, literal (`'a'`) without, and both
with tripled quotes over several lines. This module reads the four forms (`Toml.readQuoted`) and
writes a text in the form that shows it best (`Toml.quote`).

In a basic text a backslash starts an escape (`\n`, `\x41`, `\u0041`, …); over several lines, a
backslash at the end of a line leaves out the line feed and all blanks after it. A line feed right
after the opening quotes does not count.
-/

namespace Mend

namespace Toml

/-! ## Characters -/

/-- The quote of basic texts. -/
def basicQuote : Char := '"'

/-- The quote of literal texts. -/
def literalQuote : Char := '\''

/-- A space or a tab. -/
def isSpace (c : Char) : Bool := c == ' ' || c == '\t'

/-- A character that may stand for itself in comments and in texts on one line. -/
def isPlain (c : Char) : Bool := c == '\t' || (0x20 ≤ c.toNat && c.toNat ≠ 0x7F)

/-- The text after a line feed at its start, or after a carriage return and a line feed. -/
def dropLineFeed : Text → Text
  | '\n' :: rest => rest
  | '\r' :: '\n' :: rest => rest
  | t => t

/-! ## Reading -/

/-- What the reader of a basic text is in the middle of. -/
inductive Escape where
  /-- Nothing. -/
  | none
  /-- A backslash was read. -/
  | started
  /-- The code of a character, of which some hexadecimal digits are missing. -/
  | code (missing value : Nat)
  /-- A backslash and blanks were read, up to the end of the line. -/
  | lineEnd
  /-- The line feed was read; blanks are left out. -/
  | folded
  deriving DecidableEq, Repr

/-- The character that a single-letter escape stands for. -/
def escape? (c : Char) : Option Char :=
  match c with
  | '"' => some '"'
  | '\\' => some '\\'
  | 'b' => some (Char.ofNat 8)
  | 'e' => some (Char.ofNat 27)
  | 'f' => some (Char.ofNat 12)
  | 'n' => some '\n'
  | 'r' => some '\r'
  | 't' => some '\t'
  | _ => none

/-- The number of hexadecimal digits after the letter of an escape by code. -/
def codeLength? (c : Char) : Option Nat :=
  match c with
  | 'x' => some 2
  | 'u' => some 4
  | 'U' => some 8
  | _ => none

/-- The character with a code; surrogates and codes that are too large have none. -/
def ofCode? (n : Nat) : Option Char := if n.isValidChar then some (Char.ofNat n) else none

/-- One more character in front of what was read. -/
def put (c : Char) (r : Option (Text × Text)) : Option (Text × Text) :=
  r.map fun (t, rest) => (c :: t, rest)

/-- The rest of a basic text after its opening quotes, and what stands after the closing quotes.
One or two quotes in front of three closing ones belong to the text. -/
def readBasic (lines : Bool) : Escape → Text → Option (Text × Text)
  | _, [] => none
  | .started, c :: rest =>
    match escape? c, codeLength? c with
    | some e, _ => put e (readBasic lines .none rest)
    | none, some n => readBasic lines (.code n 0) rest
    | none, none =>
      if !lines then none
      else if c = '\n' then readBasic lines .folded rest
      else if isSpace c || (c = '\r' && rest.head? = some '\n') then readBasic lines .lineEnd rest
      else none
  | .code missing value, c :: rest =>
    match Json.hexDigit? c with
    | none => none
    | some d =>
      if missing = 1 then
        match ofCode? (value * 16 + d) with
        | some e => put e (readBasic lines .none rest)
        | none => none
      else readBasic lines (.code (missing - 1) (value * 16 + d)) rest
  | .lineEnd, c :: rest =>
    if c = '\n' then readBasic lines .folded rest
    else if isSpace c || (c = '\r' && rest.head? = some '\n') then readBasic lines .lineEnd rest
    else none
  | state, c :: rest =>
    if state = .folded && (isSpace c || c = '\n' || (c = '\r' && rest.head? = some '\n')) then
      readBasic lines .folded rest
    else if c = '\\' then readBasic lines .started rest
    else if c = basicQuote then
      if !lines then some ([], rest)
      else
        match rest with
        | '"' :: '"' :: '"' :: '"' :: after => some (['"', '"'], after)
        | '"' :: '"' :: '"' :: after => some (['"'], after)
        | '"' :: '"' :: after => some ([], after)
        | _ => put c (readBasic lines .none rest)
    else if isPlain c || (lines && (c = '\n' || (c = '\r' && rest.head? = some '\n'))) then
      put c (readBasic lines .none rest)
    else none

/-- The rest of a literal text after its opening quotes, and what stands after the closing quotes.
One or two quotes in front of three closing ones belong to the text. -/
def readLiteral (lines : Bool) : Text → Option (Text × Text)
  | [] => none
  | c :: rest =>
    if c = literalQuote then
      if !lines then some ([], rest)
      else
        match rest with
        | '\'' :: '\'' :: '\'' :: '\'' :: after => some (['\'', '\''], after)
        | '\'' :: '\'' :: '\'' :: after => some (['\''], after)
        | '\'' :: '\'' :: after => some ([], after)
        | _ => put c (readLiteral lines rest)
    else if isPlain c || (lines && (c = '\n' || (c = '\r' && rest.head? = some '\n'))) then
      put c (readLiteral lines rest)
    else none

/-- The quoted text at the start of a text, in any of the four forms. -/
def readQuoted : Text → Option (Text × Text)
  | '"' :: '"' :: '"' :: rest => readBasic true .none (dropLineFeed rest)
  | '"' :: rest => readBasic false .none rest
  | '\'' :: '\'' :: '\'' :: rest => readLiteral true (dropLineFeed rest)
  | '\'' :: rest => readLiteral false rest
  | _ => none

/-! ## Writing -/

/-- The longest run of a character. -/
def longestRun (c : Char) (current longest : Nat) : Text → Nat
  | [] => longest
  | d :: rest =>
    if d = c then longestRun c (current + 1) (max longest (current + 1)) rest
    else longestRun c 0 longest rest

/-- Whether a character can only be written as an escape: a control character that is neither a tab
nor a line feed. -/
def needsEscape (c : Char) : Bool := !isPlain c && c ≠ '\n'

/-- The escape of a character in a basic text; nothing when it stands for itself. -/
def basicEscape? (lines : Bool) (c : Char) : Option Text :=
  if c = Char.ofNat 8 then some ['\\', 'b']
  else if c = '\t' then some ['\\', 't']
  else if c = '\n' then (if lines then none else some ['\\', 'n'])
  else if c = Char.ofNat 12 then some ['\\', 'f']
  else if c = '\r' then some ['\\', 'r']
  else if c = '\\' then some ['\\', '\\']
  else if isPlain c then none
  else
    let digits := (Nat.toDigits 16 (c.toNat + 256)).drop 1
    some ('\\' :: 'u' :: '0' :: '0' :: digits.map Char.toUpper)

/-- The inside of a basic text. A quote is escaped when more quotes than `allowed` would stand
together; `quotes` is the number of those just written. -/
def basicBody (lines : Bool) (allowed quotes : Nat) : Text → Text
  | [] => []
  | c :: rest =>
    if c = basicQuote then
      if quotes < allowed then c :: basicBody lines allowed (quotes + 1) rest
      else '\\' :: c :: basicBody lines allowed 0 rest
    else
      match basicEscape? lines c with
      | some e => e ++ basicBody lines allowed 0 rest
      | none => c :: basicBody lines allowed 0 rest

/-- The opening line feed of a text with tripled quotes, which is written when the text has several
lines. -/
def openingLine (t : Text) : Text := if t.contains '\n' then ['\n'] else []

/-- A text in one of the four forms. -/
inductive Form where
  /-- Basic. -/
  | basic
  /-- Literal. -/
  | literal
  /-- Basic with tripled quotes. -/
  | basicLines
  /-- Literal with tripled quotes. -/
  | literalLines
  deriving DecidableEq, Repr

/-- The form that shows a text best: a basic text without escapes, a literal one, a basic text with
tripled quotes and without escapes, a literal one, and else a basic text with escapes. -/
def bestForm (t : Text) : Form :=
  let coded := t.any needsEscape
  let escaped := coded || t.contains '\\'
  let several := t.contains '\n'
  let doubles := longestRun basicQuote 0 0 t
  let singles := longestRun literalQuote 0 0 t
  if !escaped && doubles = 0 && !several then .basic
  else if !coded && singles = 0 && !several then .literal
  else if !escaped && doubles ≤ 2 then .basicLines
  else if !coded && singles ≤ 2 then .literalLines
  else if several then .basicLines
  else .basic

/-- A text in a form. -/
def quoteAs (t : Text) : Form → Text
  | .basic => basicQuote :: basicBody false 0 0 t ++ [basicQuote]
  | .literal => literalQuote :: t ++ [literalQuote]
  | .basicLines =>
    List.replicate 3 basicQuote ++ openingLine t ++ basicBody true 2 0 t ++
      List.replicate 3 basicQuote
  | .literalLines =>
    List.replicate 3 literalQuote ++ openingLine t ++ t ++ List.replicate 3 literalQuote

/-- A text in the form that shows it best. -/
def quote (t : Text) : Text := quoteAs t (bestForm t)

end Toml

end Mend
