import Mend.Json.Number
import Mend.Text.Quoted

/-!
# Writing JSON

Two forms of a value: the compact one, without white space (`Json.compact`), and the indented one
(`Json.pretty`), with one item or member a line, two spaces a level, and `[]` and `{}` for empty
ones. In texts the quote, the backslash and the controls below the space are escaped, the controls
by a short escape where JSON has one.
-/

namespace Mend

namespace Json

/-- A hexadecimal digit. -/
def hexChar (n : Nat) : Char := Nat.digitChar n

/-- One character inside a text value. -/
def writeChar (c : Char) : Text :=
  if c = '"' then ['\\', '"']
  else if c = '\\' then ['\\', '\\']
  else if c = '\n' then ['\\', 'n']
  else if c = '\r' then ['\\', 'r']
  else if c = '\t' then ['\\', 't']
  else if c.toNat = 8 then ['\\', 'b']
  else if c.toNat = 12 then ['\\', 'f']
  else if c.toNat < 0x20 then ['\\', 'u', '0', '0', hexChar (c.toNat / 16), hexChar (c.toNat % 16)]
  else [c]

/-- A text value, between quotes. -/
def writeText (t : Text) : Text := '"' :: t.flatMap writeChar ++ ['"']

mutual

/-- The form of a value without white space. -/
def compact : Json → Text
  | null => "null".toList
  | bool b => if b then "true".toList else "false".toList
  | number n => n.write
  | text t => writeText t
  | array [] => ['[', ']']
  | array (v :: vs) => '[' :: compact v ++ compactItems vs ++ [']']
  | object [] => ['\x7b', '\x7d']
  | object ((k, v) :: ms) =>
    '\x7b' :: writeText k ++ ':' :: compact v ++ compactMembers ms ++ ['\x7d']

/-- Further items, each after a comma. -/
def compactItems : List Json → Text
  | [] => []
  | v :: vs => ',' :: compact v ++ compactItems vs

/-- Further members, each after a comma. -/
def compactMembers : List (Text × Json) → Text
  | [] => []
  | (k, v) :: ms => ',' :: writeText k ++ ':' :: compact v ++ compactMembers ms

end

/-- A line feed and the indentation of a level. -/
def newLine (level : Nat) : Text := '\n' :: List.replicate (2 * level) ' '

mutual

/-- The indented form of a value that stands at a level. -/
def prettyAt : Nat → Json → Text
  | level, array (v :: vs) =>
    '[' :: newLine (level + 1) ++ prettyAt (level + 1) v ++ prettyItems (level + 1) vs ++
      newLine level ++ [']']
  | level, object ((k, v) :: ms) =>
    '\x7b' :: newLine (level + 1) ++ writeText k ++ ':' :: ' ' :: prettyAt (level + 1) v ++
      prettyMembers (level + 1) ms ++ newLine level ++ ['\x7d']
  | _, array [] => ['[', ']']
  | _, object [] => ['\x7b', '\x7d']
  | _, null => compact null
  | _, bool b => compact (bool b)
  | _, number n => compact (number n)
  | _, text t => compact (text t)

/-- Further items, each after a comma on a line of its own. -/
def prettyItems : Nat → List Json → Text
  | _, [] => []
  | level, v :: vs => ',' :: newLine level ++ prettyAt level v ++ prettyItems level vs

/-- Further members, each after a comma on a line of its own. -/
def prettyMembers : Nat → List (Text × Json) → Text
  | _, [] => []
  | level, (k, v) :: ms =>
    ',' :: newLine level ++ writeText k ++ ':' :: ' ' :: prettyAt level v ++ prettyMembers level ms

end

/-- The indented form of a value. -/
def pretty (v : Json) : Text := prettyAt 0 v

end Json

end Mend
