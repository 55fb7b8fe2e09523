import Mend.Json.Reader

/-!
# JSON inside free text

Replies wrap JSON in prose, in fenced blocks and in typographic quotes. `Json.recover?` undoes that:
it replaces the characters that look like JSON's own (`Text.plainQuotes`), drops fence lines
(`Text.withoutFences`), takes the first bracketed value (`Text.balanced?`) and reads it.

The bracketed value is found by a scanner with a stack of open brackets (`Nesting`); brackets inside
double quotes do not count, and a backslash inside quotes protects the next character.
-/

namespace Mend

namespace Text

/-- Blanks that are written as a space. -/
def isWideBlank (c : Char) : Bool :=
  let n := c.toNat
  n == 0xA0 || n == 0x1680 || (0x2000 ≤ n && n ≤ 0x200A) || n == 0x202F || n == 0x205F ||
    n == 0x3000

/-- Characters without width, which are dropped. -/
def isZeroWidth (c : Char) : Bool :=
  let n := c.toNat
  (0x200B ≤ n && n ≤ 0x200D) || n == 0xFEFF

/-- The plain form of a character: none for one without width. -/
def plainChar? (c : Char) : Option Char :=
  let n := c.toNat
  if isWideBlank c then some ' '
  else if isZeroWidth c then none
  else if 0x201C ≤ n && n ≤ 0x201F then some '"'
  else if 0x2018 ≤ n && n ≤ 0x201B then some '\''
  else some c

/-- A text with plain quotes and spaces and without characters that have no width. -/
def plainQuotes (t : Text) : Text := t.filterMap plainChar?

/-- The mark that opens or closes a fenced block. -/
def fence : Text := ['\x60', '\x60', '\x60']

/-- The lines of a text but those that open or close a fenced block. -/
def withoutFences (t : Text) : Text :=
  joinWith [lf] (t.lines.filter fun line => !fence.isPrefixOf line.trimStart)

end Text

/-- Where the bracket scanner stands. -/
structure Nesting where
  /-- The brackets that are open, innermost first. -/
  stack : Text
  /-- Whether the scanner is between double quotes. -/
  quoted : Bool
  /-- Whether the character before was a backslash between quotes. -/
  escaped : Bool
  deriving DecidableEq

namespace Nesting

/-- The scanner before the first character. -/
def outside : Nesting := ⟨[], false, false⟩

/-- A bracket that opens a value. -/
def isOpener (c : Char) : Bool := c == '[' || c == '\x7b'

/-- The bracket that closes what an opener opened. -/
def closerOf (c : Char) : Char := if c = '[' then ']' else '\x7d'

/-- The scanner after a character; none when a bracket closes the wrong kind or nothing. -/
def step? (s : Nesting) (c : Char) : Option Nesting :=
  if s.quoted then
    if s.escaped then some { s with escaped := false }
    else if c = '\\' then some { s with escaped := true }
    else if c = '"' then some { s with quoted := false }
    else some s
  else if c = '"' then some { s with quoted := true }
  else if isOpener c then some { s with stack := c :: s.stack }
  else if c = ']' || c = '\x7d' then
    match s.stack with
    -- a closing bracket has to fit the innermost open one
    | [] => none
    | opener :: rest => if closerOf opener = c then some { s with stack := rest } else none
  else some s

/-- Whether every bracket is closed. -/
def isClosed (s : Nesting) : Bool := s.stack.isEmpty && !s.quoted

/-- The characters up to the one that closes every bracket. -/
def take? (s : Nesting) : Text → Option Text
  | [] => none
  | c :: rest =>
    match s.step? c with
    | none => none
    | some next => if next.isClosed then some [c] else (next.take? rest).map (c :: ·)

end Nesting

namespace Text

/-- The first bracketed value of a text: from its first opener to the bracket that closes it. -/
def balanced? (t : Text) : Option Text :=
  Nesting.outside.take? (t.dropWhile fun c => !Nesting.isOpener c)

end Text

namespace Json

/-- The first bracketed value of a text, read as JSON. -/
def recover? (t : Text) : Option Json :=
  match (t.plainQuotes.withoutFences).balanced? with
  | none => none
  | some candidate => read? candidate

end Json

end Mend
