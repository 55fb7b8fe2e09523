import Mend.Json.Recovery
import Mend.Request.Basic
import Mend.Text.Classes
import Mend.Text.Match

/-!
# Requests in a section

A section that asks for files is free text. Four stages read it, and the first one that applies and
has a result wins (`Request.resolve`):

1. `json`: a bracketed JSON value that names at least one path;
2. `prose_list`: a list whose items are sentences, which asks for nothing;
3. `key_pairs`: the `path` and `type` members of JSON that cannot be read;
4. `lines`: one path a line, between quotes or bare.
-/

namespace Mend

namespace Request

/-! ## JSON -/

/-- Whether the text holds an opening bracket. -/
def hasBracket (t : Text) : Bool := t.any Nesting.isOpener

/-- The requests of the first bracketed value; none when it names no path. -/
def ofRecovered? (t : Text) : Option (List Request) :=
  match Json.recover? t with
  | none => none
  | some v => if (listOfJson v).isEmpty then none else some (listOfJson v)

/-! ## Lists -/

/-- A bullet of a list item. -/
def isBullet (c : Char) : Bool := c == '-' || c == '*' || c.toNat == 0x2022

/-- The text after the marker of a list item: a bullet, or a number with a point or a bracket. -/
def afterMarker? (t : Text) : Option Text :=
  match Text.run? Text.isDecimalDigit t with
  | some (_, '.' :: rest) => some rest
  | some (_, ')' :: rest) => some rest
  | some _ => none
  | none =>
    match t with
    | c :: rest => if isBullet c then some rest else none
    | [] => none

/-- The body of a list item, after its marker and the blanks that follow it. -/
def itemBody? (line : Text) : Option Text := do
  let rest ← afterMarker? line.trimStart
  let (_, body) ← Text.run? Text.isBlank rest
  return body

/-- Whether the text is a list: without brackets and with at least one list item. -/
def isList (t : Text) : Bool :=
  !hasBracket t && t.lines.any fun line => (itemBody? line).isSome

/-- No requests, when some list item is more than one word. -/
def ofProse? (t : Text) : Option (List Request) :=
  if (t.lines.filterMap itemBody?).any (fun body => body.trim.any Text.isBlank) then some []
  else none

/-! ## Member pairs -/

/-- A member with one of the given names, written in quotes, and its non-empty text. -/
def member (names : List Text) : Text.Recogniser Text := fun _ t => do
  let rest ← names.findSome? fun name => Text.dropPrefix? ('"' :: name ++ ['"']) t
  let rest ← Text.dropChar? ':' rest.trimStart
  let rest ← Text.dropChar? '"' rest.trimStart
  Text.upTo? '"' rest

/-- The names of a path member. -/
def pathNames : List Text := ["path".toList, "filePath".toList]

/-- The name of a kind member. -/
def kindNames : List Text := ["type".toList]

/-- Whether the text holds the quoted name of a path member. -/
def hasPathName (t : Text) : Bool :=
  pathNames.any fun name => Text.hasInfix ('"' :: name ++ ['"']) t

/-- Paths with kinds, one by one; a path without a known kind asks for a file. -/
def pairUp : List Text → List (Option RequestKind) → List Request
  | [], _ => []
  | path :: paths, kinds =>
    ⟨(kinds.head?.bind id).getD .file, path.trim⟩ :: pairUp paths kinds.tail

/-- The n-th path member with the n-th kind member. -/
def ofMembers? (t : Text) : Option (List Request) :=
  let kinds := (Text.matchAll (member kindNames) t).map RequestKind.ofWire?
  match pairUp (Text.matchAll (member pathNames) t) kinds with
  | [] => none
  | r :: rs => some (r :: rs)

/-! ## Lines -/

/-- A non-empty text between two equal quotes of any kind. -/
def quotedPart : Text.Recogniser Text := fun _ t =>
  match t with
  | c :: rest => if c = '"' ∨ c = '\'' ∨ c = '\x60' then Text.upTo? c rest else none
  | [] => none

/-- A character of a path that needs no quotes. -/
def isBareChar (c : Char) : Bool := c.isAlphanum || c == '_' || c == '-' || c == '/' || c == '.'

/-- A character of a line that holds punctuation only. -/
def isPunctuation (c : Char) : Bool :=
  c == '[' || c == ']' || c == '\x7b' || c == '\x7d' || c == ',' || c == ';' || c == ':'

/-- The words that mark a line as a piece of broken JSON. -/
def fragmentWords : List Text :=
  ["\"type\"".toList, "\"path\"".toList, "FILE_CONTENT".toList, "DIRECTORY_LISTING".toList]

/-- The request on a line: the first quoted text, or the line itself if it is a bare path. -/
def ofLine? (line : Text) : Option Request :=
  let body := ((itemBody? line).getD line).trim
  let t := (Text.dropEndWhile (· == ',') body).trim
  if t.isEmpty || t.head? = some '\x7b' || t.all isPunctuation then none
  else if fragmentWords.any fun word => Text.hasInfix word t then none
  else
    match Text.matchFirst? quotedPart t with
    | some content => content.nonBlank?.map file
    | none => if t.all isBareChar then some (file t) else none

/-- The requests of all lines; none when no line holds one. -/
def ofLines? (t : Text) : Option (List Request) :=
  match t.lines.filterMap ofLine? with
  | [] => none
  | r :: rs => some (r :: rs)

/-! ## Stages -/

/-- One way to read a section. -/
structure Stage where
  /-- The name of the stage. -/
  name : Text
  /-- Whether the stage is tried on a text. -/
  applies : Text → Bool
  /-- What the stage reads; nothing leaves the text to the next stage. -/
  extract : Text → Option (List Request)

/-- The stages in the order in which they are tried. -/
def stages : List Stage :=
  [⟨"json".toList, hasBracket, ofRecovered?⟩,
   ⟨"prose_list".toList, isList, ofProse?⟩,
   ⟨"key_pairs".toList, hasPathName, ofMembers?⟩,
   ⟨"lines".toList, fun t => !t.trim.isEmpty, ofLines?⟩]

/-- What a stage reads, if it applies. -/
def Stage.run? (stage : Stage) (t : Text) : Option (List Request) :=
  if stage.applies t then stage.extract t else none

/-- The requests of a section: what the first stage with a result reads. -/
def resolve (t : Text) : List Request :=
  if t.trim.isEmpty then [] else (stages.findSome? (·.run? t)).getD []

end Request

end Mend
