import Mend.Shell.Machine
import Mend.Shell.Pattern

/-!
# Fields

What the words of a command become. The pieces of a word are replaced by fragments: texts that stay
whole, texts that are split at separators, and lists of texts. The fragments of a word make up its
fields (`Fragment.fields`), and a field that is a pattern is replaced by the paths that it stands
for (`Field.paths`).
-/

namespace Mend

namespace Shell

/-- What a piece of a word is replaced by. -/
inductive Fragment where
  /-- A text of the script outside of quotes. -/
  | plain (t : Octets)
  /-- A text that is not split. -/
  | whole (t : Octets)
  /-- A text that is split. -/
  | loose (t : Octets)
  /-- Texts of which each is a field. -/
  | several (ts : List Octets)
  deriving DecidableEq, Repr

/-- A field: its characters with whether they were quoted. -/
abbrev Field := List Glyph

namespace Field

/-- A field of a quoted text. -/
def ofQuoted (t : Octets) : Field := t.map (⟨·, true⟩)

/-- A field of a text that was not quoted. -/
def ofPlain (t : Octets) : Field := t.map (⟨·, false⟩)

end Field

/-- The fields read so far, last one first, and the field that is being read. -/
structure Fields where
  /-- The fields that are done. -/
  done : List Field := []
  /-- The field that is being read, if there is one. -/
  current : Option Field := none

namespace Fields

/-- The fields with more text in the current one. -/
def extend (f : Fields) (t : Field) : Fields := { f with current := some (f.current.getD [] ++ t) }

/-- The fields with the current one done. -/
def close (f : Fields) : Fields :=
  match f.current with
  | some t => ⟨t :: f.done, none⟩
  | none => f

/-- The fields after one more character of a text that is split. A blank separator ends a field that
there is; another separator ends one in any case. -/
def split (separators : Octets) (f : Fields) (c : Char) : Fields :=
  if !separators.contains c then f.extend [⟨c, false⟩]
  else if c = ' ' || c = '\t' || c = '\n' then f.close
  else ⟨f.current.getD [] :: f.done, none⟩

/-- The fields after one more fragment. -/
def add (separators : Octets) (f : Fields) : Fragment → Fields
  | .plain t => f.extend (Field.ofPlain t)
  | .whole t => f.extend (Field.ofQuoted t)
  | .loose t => t.foldl (split separators) f
  | .several [] => f
  | .several (t :: ts) =>
    ts.foldl (fun f t => f.close.extend (Field.ofQuoted t)) (f.extend (Field.ofQuoted t))

end Fields

namespace Fragment

/-- A fragment of a word that is split like a value. -/
def loosen : Fragment → Fragment
  | .plain t => .loose t
  | other => other

/-- The fields that the fragments of a word make up. -/
def fields (separators : Octets) (fragments : List Fragment) : List Field :=
  (fragments.foldl (Fields.add separators) {}).close.done.reverse

/-- The glyphs of fragments that are not split. -/
def glyphs (fragments : List Fragment) : List Glyph :=
  fragments.flatMap fun
    | .plain t => Field.ofPlain t
    | .whole t => Field.ofQuoted t
    | .loose t => Field.ofPlain t
    | .several ts => Field.ofQuoted (Text.joinWith [' '] ts)

/-- The text of fragments that are not split. -/
def text (fragments : List Fragment) : Octets := Glyph.text (glyphs fragments)

end Fragment

namespace Field

/-- The paths that the rest of a pattern stands for below a directory; `shown` is the path so far.
Names that start with a point are only meant by a pattern that starts with one. -/
def pathsBelow (d : Disk) (shown : Octets) : List Field → List Octets
  | [] => [shown]
  | part :: rest =>
    let go (name : Octets) : List Octets :=
      let here := shown ++ name
      match rest with
      | [] => if d.isThere here.toText then [here] else []
      | _ => if d.isDir here.toText then pathsBelow d (here ++ ['/']) rest else []
    if part.isEmpty || !Glyph.isPattern part then go (Glyph.text part)
    else
      match d.find (if shown.isEmpty then ['.'] else shown.toText) with
      | .ok (loc, .dir) =>
        let names := (d.children loc).map fun (name, _) => Octets.ofText name
        let meant (name : Octets) : Bool :=
          (name.head? ≠ some '.' || part.head?.any (·.char = '.')) && Glyph.stands part name
        (names.filter meant).flatMap go
      | _ => []

/-- The pieces of a field between slashes. -/
def pieces (f : Field) : List Field :=
  f.foldr (fun g parts =>
    if g.char = '/' then [] :: parts
    else
      match parts with
      | part :: more => (g :: part) :: more
      | [] => [[g]]) [[]]

/-- The paths that a field stands for if it is a pattern and there are some, and else its text. -/
def paths (d : Disk) (f : Field) : List Octets :=
  if Glyph.isPattern f then
    match pathsBelow d [] (pieces f) with
    | [] => [Glyph.text f]
    | found => found
  else [Glyph.text f]

end Field

end Shell

end Mend
