import Mend.Text.Basic

/-!
# Finding matches in a text

A recogniser looks at the text from one position on, with the character before that position, and
answers what it read and the text after it. `Text.matchAll` collects the matches of a recogniser
from left to right without overlap, `Text.matchFirst?` the first of them.

The small recognisers here are the parts that larger ones are made of.
-/

namespace Mend

namespace Text

/-- A recogniser: from the character before a position and the text from there on to what it read
and the text after the match. -/
abbrev Recogniser (α : Type) := Option Char → Text → Option (α × Text)

/-- The matches from a position on, where the next `skip` characters belong to an earlier match. -/
def matchAllFrom {α : Type} (p : Recogniser α) (before : Option Char) (skip : Nat) : Text → List α
  | [] => []
  | c :: rest =>
    match skip with
    | skip + 1 => matchAllFrom p (some c) skip rest
    | 0 =>
      match p before (c :: rest) with
      | some (a, after) => a :: matchAllFrom p (some c) (rest.length - after.length) rest
      | none => matchAllFrom p (some c) 0 rest

/-- The matches of a recogniser, from left to right and without overlap. -/
def matchAll {α : Type} (p : Recogniser α) (t : Text) : List α := matchAllFrom p none 0 t

/-- The first match of a recogniser. -/
def matchFirst? {α : Type} (p : Recogniser α) (t : Text) : Option α := (matchAll p t).head?

/-- A non-empty run of a class of characters at the start of a text, and the text after it. -/
def run? (p : Char → Bool) (t : Text) : Option (Text × Text) :=
  match t.takeWhile p with
  | [] => none
  | c :: more => some (c :: more, t.dropWhile p)

/-- The text after a character. -/
def dropChar? (c : Char) : Text → Option Text
  | [] => none
  | d :: rest => if c = d then some rest else none

/-- A non-empty content up to the next `close`, and the text after that. -/
def upTo? (close : Char) (t : Text) : Option (Text × Text) := do
  let (content, rest) ← run? (· != close) t
  let rest ← dropChar? close rest
  return (content, rest)

end Text

end Mend
