import Mend.Text.Basic

/-!
# Patterns of scripts

A pattern is a text in which an asterisk stands for any text, a question mark for one character and
brackets for one of a class. A character of a pattern that was quoted stands for itself
(`Shell.Glyph`).
-/

namespace Mend

namespace Shell

/-- A character of a pattern, and whether it was quoted. -/
structure Glyph where
  /-- The character. -/
  char : Char
  /-- Whether it stands for itself. -/
  isQuoted : Bool
  deriving DecidableEq, Repr

namespace Glyph

/-- Whether a glyph is a special character of patterns. -/
def isSign (g : Glyph) (c : Char) : Bool := !g.isQuoted && g.char = c

/-- The text of glyphs. -/
def text (gs : List Glyph) : Text := gs.map Glyph.char

/-- Whether glyphs hold a special character. -/
def isPattern (gs : List Glyph) : Bool :=
  gs.any fun g => g.isSign '*' || g.isSign '?' || g.isSign '['

/-- Whether a character is in a class: the characters between brackets, with ranges. -/
def inClass (c : Char) : List Glyph → Bool
  | a :: dash :: b :: rest =>
    if dash.isSign '-' then (a.char ≤ c && c ≤ b.char) || inClass c rest
    else a.char = c || inClass c (dash :: b :: rest)
  | a :: rest => a.char = c || inClass c rest
  | [] => false

/-- The content of a class and the glyphs after its closing bracket. A bracket right at the start of
the content belongs to it. -/
def cutClass? (gs : List Glyph) : Option (List Glyph × List Glyph) :=
  let first := gs.take 1
  let inside := (gs.drop 1).takeWhile fun g => !g.isSign ']'
  match (gs.drop 1).dropWhile fun g => !g.isSign ']' with
  | _ :: rest => some (first ++ inside, rest)
  | [] => none

/-- The test of a character by the content of a class, which an exclamation mark at the start turns
round, and the glyphs after the class. -/
def classTest? (gs : List Glyph) : Option ((Char → Bool) × List Glyph) :=
  let negated := gs.head?.any fun g => g.isSign '!' || g.isSign '^'
  (cutClass? (if negated then gs.drop 1 else gs)).map fun (inside, rest) =>
    (fun c => inClass c inside != negated, rest)

/-- Whether a text is one that glyphs stand for; `fuel` bounds the steps. -/
def matchesFrom : Nat → List Glyph → Text → Bool
  | 0, _, _ => false
  | _ + 1, [], t => t.isEmpty
  | fuel + 1, g :: rest, t =>
    if g.isSign '*' then
      matchesFrom fuel rest t ||
        match t with
        | [] => false
        | _ :: t => matchesFrom fuel (g :: rest) t
    else
      match t with
      | [] => false
      | c :: t =>
        if g.isSign '?' then matchesFrom fuel rest t
        else if g.isSign '[' then
          match classTest? rest with
          | some (test, after) => test c && matchesFrom fuel after t
          | none => c = '[' && matchesFrom fuel rest t
        else g.char = c && matchesFrom fuel rest t

/-- Whether a text is one that glyphs stand for. -/
def stands (gs : List Glyph) (t : Text) : Bool := matchesFrom (gs.length + t.length + 1) gs t

/-- A text without the shortest or longest front that glyphs stand for. -/
def cutFront (gs : List Glyph) (longest : Bool) (t : Text) : Text :=
  let lengths := (List.range (t.length + 1)).filter fun n => stands gs (t.take n)
  match if longest then lengths.getLast? else lengths.head? with
  | some n => t.drop n
  | none => t

/-- A text without the shortest or longest end that glyphs stand for. -/
def cutBack (gs : List Glyph) (longest : Bool) (t : Text) : Text :=
  let starts := (List.range (t.length + 1)).filter fun n => stands gs (t.drop n)
  match if longest then starts.head? else starts.getLast? with
  | some n => t.take n
  | none => t

end Glyph

end Shell

end Mend
