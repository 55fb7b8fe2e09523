import Mend.Toml.Quoted

/-!
# Writing TOML

The text of a document: the entries of the root table, one a line, and then the tables below it,
each under its header and after an empty line. An array of several items has one on each line.
-/

namespace Mend

namespace Toml

/-- The text of a whole number. -/
def writeInt : Int → Text
  | .ofNat n => Text.ofNat n
  | .negSucc n => '-' :: Text.ofNat (n + 1)

/-- The text of a truth value. -/
def writeBool (b : Bool) : Text := if b then "true".toList else "false".toList

/-- The text of an array of texts. -/
def writeTexts : List Text → Text
  | [] => ['[', ']']
  | [item] => '[' :: quote item ++ [']']
  | items =>
    '[' :: items.flatMap (fun item => "\n    ".toList ++ quote item ++ [',']) ++ ['\n', ']']

/-- A line with a key and the text of its value. -/
def writeEntry (name : String) (value : Text) : Text :=
  name.toList ++ " = ".toList ++ value ++ [Text.lf]

/-- The header of a table below the root. -/
def writeHeader (name : String) : Text := "\n[".toList ++ name.toList ++ "]\n".toList

end Toml

end Mend
