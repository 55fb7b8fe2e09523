import Mend.Toml.Quoted
import Mend.Toml.Scalar
import Mend.Toml.Tree

/-!
# Reading TOML

A document is a sequence of expressions, each on lines of its own: headers of tables (`[a.b]`) and
of items of arrays of tables (`[[a.b]]`), and keys with values. Blank lines and comments stand
between them. `Toml.read?` reads the expressions and collects the tables that they define.

Arrays and inline tables may go over several lines with comments in them, may have a comma at the
end and nest at most `maxDepth` levels. The fuel of the readers is computed from the length of the
text, since every two steps take at least one character.
-/

namespace Mend

namespace Toml

/-! ## Blanks and lines -/

/-- How deep arrays and inline tables may nest. -/
def maxDepth : Nat := 80

/-- The text after spaces and tabs. -/
def skipSpace (t : Text) : Text := t.dropWhile isSpace

/-- The text after blanks, line feeds and comments; nothing when a comment holds a control
character. -/
def skipLines (comment : Bool) : Text → Option Text
  | [] => some []
  | c :: rest =>
    if c = '\n' || (c = '\r' && rest.head? = some '\n') then skipLines false rest
    else if comment then if isPlain c then skipLines true rest else none
    else if isSpace c then skipLines false rest
    else if c = '#' then skipLines true rest
    else some (c :: rest)

/-- The text after what may end a line: blanks, a comment, and a line feed unless the text ends. -/
def endLine (comment : Bool) : Text → Option Text
  | [] => some []
  | c :: rest =>
    if c = '\n' then some rest
    else if c = '\r' && rest.head? = some '\n' then endLine comment rest
    else if comment then if isPlain c then endLine true rest else none
    else if isSpace c then endLine false rest
    else if c = '#' then endLine true rest
    else none

/-! ## Keys -/

/-- A character of a key without quotes. -/
def isKeyChar (c : Char) : Bool := c.isAlphanum || c == '_' || c == '-'

/-- One name of a key. -/
def readName : Text → Option (Text × Text)
  | '"' :: rest => readBasic false .none rest
  | '\'' :: rest => readLiteral false rest
  | t =>
    let name := t.takeWhile isKeyChar
    if name.isEmpty then none else some (name, t.dropWhile isKeyChar)

/-- The names of a key with points between them, and the text after it and its blanks. -/
def readKey : Nat → Text → Option ((Text × List Text) × Text)
  | 0, _ => none
  | fuel + 1, t => do
    let (name, after) ← readName t
    match skipSpace after with
    | '.' :: rest =>
      let ((next, path), after) ← readKey fuel (skipSpace rest)
      return ((name, next :: path), after)
    | rest => return ((name, []), rest)

/-! ## Values -/

mutual

/-- The value at the start of a text, and the text after it. -/
def readValue : Nat → Nat → Text → Option (Toml × Text)
  | 0, _, _ => none
  | fuel + 1, depth, t =>
    match t with
    | '"' :: _ => (readQuoted t).map fun (s, after) => (text s, after)
    | '\'' :: _ => (readQuoted t).map fun (s, after) => (text s, after)
    | '[' :: rest =>
      match depth with
      | 0 => none
      | depth + 1 =>
        match skipLines false rest with
        | some (']' :: after) => some (array [], after)
        | some items => (readItems fuel depth items).map fun (vs, after) => (array vs, after)
        | none => none
    | '\x7b' :: rest =>
      match depth with
      | 0 => none
      | depth + 1 =>
        match skipLines false rest with
        | some ('\x7d' :: after) => some (table [], after)
        | some fields =>
          (readFields fuel depth [] fields).map fun (es, after) =>
            (table (TomlNode.entryValues es), after)
        | none => none
    | other => readScalar other

/-- The values up to the bracket that closes an array, and the text after it. -/
def readItems : Nat → Nat → Text → Option (List Toml × Text)
  | 0, _, _ => none
  | fuel + 1, depth, t => do
    let (value, after) ← readValue fuel depth t
    match ← skipLines false after with
    | ']' :: rest => return ([value], rest)
    | ',' :: rest =>
      match ← skipLines false rest with
      | ']' :: rest => return ([value], rest)
      | rest =>
        let (values, after) ← readItems fuel depth rest
        return (value :: values, after)
    | _ => none

/-- The entries up to the brace that closes an inline table, and the text after it. -/
def readFields : Nat → Nat → TomlEntries → Text → Option (TomlEntries × Text)
  | 0, _, _, _ => none
  | fuel + 1, depth, es, t => do
    let ((name, path), after) ← readKey (t.length + 1) t
    match after with
    | '=' :: rest =>
      let (value, after) ← readValue fuel depth (skipSpace rest)
      let es ← es.putKey value name path
      match ← skipLines false after with
      | '\x7d' :: rest => return (es, rest)
      | ',' :: rest =>
        match ← skipLines false rest with
        | '\x7d' :: rest => return (es, rest)
        | rest => readFields fuel depth es rest
      | _ => none
    | _ => none

end

/-! ## Documents -/

/-- What has been read of a document: its tables, and the header that keys belong to. -/
structure Draft where
  /-- The tables. -/
  entries : TomlEntries := []
  /-- The way to the table that keys are put into. -/
  header : List Text := []

/-- The draft after a header. -/
def Draft.enter (d : Draft) (openLast : Text → TomlEntries → Option TomlEntries)
    (name : Text) (path : List Text) : Option Draft :=
  let way := name :: path
  (d.entries.within (openLast (way.getLastD [])) way.dropLast).map fun entries => ⟨entries, way⟩

/-- The draft after a key with its value. -/
def Draft.put (d : Draft) (v : Toml) (name : Text) (path : List Text) : Option Draft :=
  (d.entries.within (TomlEntries.putKey v name path) d.header).map fun entries =>
    { d with entries }

/-- The draft after the expression at the start of a text, and the text after it. -/
def readExpression (d : Draft) (t : Text) : Option (Draft × Text) :=
  match t with
  | '[' :: '[' :: rest => do
    let ((name, path), after) ← readKey (t.length + 1) (skipSpace rest)
    match after with
    | ']' :: ']' :: rest => return (← d.enter TomlEntries.openItem name path, rest)
    | _ => none
  | '[' :: rest => do
    let ((name, path), after) ← readKey (t.length + 1) (skipSpace rest)
    match after with
    | ']' :: rest => return (← d.enter TomlEntries.openTable name path, rest)
    | _ => none
  | t => do
    let ((name, path), after) ← readKey (t.length + 1) t
    match after with
    | '=' :: rest =>
      let (value, after) ← readValue (2 * t.length + 2) maxDepth (skipSpace rest)
      return (← d.put value name path, after)
    | _ => none

/-- The draft after all expressions of a text. -/
def readExpressions : Nat → Draft → Text → Option Draft
  | 0, _, _ => none
  | fuel + 1, d, t =>
    match skipLines false t with
    | none => none
    | some [] => some d
    | some t => do
      let (d, after) ← readExpression d t
      readExpressions fuel d (← endLine false after)

/-- The byte order mark, which may open a document. -/
def byteOrderMark : Char := Char.ofNat 0xFEFF

/-- The table that a document defines. -/
def read? (t : Text) : Option Toml :=
  (readExpressions (t.length + 1) {} (Text.dropPrefix [byteOrderMark] t)).map fun d =>
    .table (TomlNode.entryValues d.entries)

end Toml

end Mend
