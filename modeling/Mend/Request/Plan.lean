import Mend.Request.Basic
import Mend.Text.Classes
import Mend.Text.Match

/-!
# Files that a plan names

A plan without requests may still name the files it is about. Four recognisers look for them, one
after the other over the whole plan, and `Request.ofPlan` asks for each path once, in the order in
which the recognisers found it:

- `reviewed`: a review directive and a quoted path;
- `required`: a request directive and, later on its line, a quoted file path member;
- `ticked`: a name with an extension between backticks, if it has a slash or a source extension;
- `bare`: a path with a slash and a source extension that stands as a word of its own.
-/

namespace Mend

namespace Request

/-- The extensions of source files, in the order in which a bare path tries them. -/
def sourceExtensions : List Text :=
  ["go".toList, "ts".toList, "js".toList, "tpl".toList, "yaml".toList, "yml".toList,
   "proto".toList, "py".toList, "java".toList, "cpp".toList, "h".toList, "c".toList,
   "json".toList, "xml".toList, "html".toList, "css".toList, "rs".toList, "toml".toList,
   "md".toList]

/-- The letter that a character is read as when case does not count: its lower-case form, where
the long s and the Kelvin sign stand for the letters they come from. -/
def plainLetter (c : Char) : Char :=
  if c.toNat = 0x17F then 's' else if c.toNat = 0x212A then 'k' else c.toLower

/-- The text after `word`, given in lower case, when the text starts with it in any case. -/
def afterWord? : Text → Text → Option Text
  | [], t => some t
  | _ :: _, [] => none
  | w :: word, c :: rest => if plainLetter c = w then afterWord? word rest else none

/-- A double or single quote. -/
def isQuote (c : Char) : Bool := c == '"' || c == '\''

/-- A quote of any kind, the backtick included. -/
def isAnyQuote (c : Char) : Bool := isQuote c || c == '\x60'

/-- A character of the gap after a review directive. -/
def isDirectiveGap (c : Char) : Bool := c == ':' || Text.isBlank c

/-- A non-empty content between two characters of a class of quotes. -/
def between? (isQ : Char → Bool) (t : Text) : Option (Text × Text) := do
  let (_, rest) ← t.head?.bind fun c => if isQ c then some (c, t.drop 1) else none
  let (content, rest) ← Text.run? (fun c => !isQ c) rest
  match rest with
  | [] => none
  | _ :: rest => return (content, rest)

/-- A review directive and the path after it. -/
def reviewed : Text.Recogniser Text := fun _ t => do
  let rest ← afterWord? "review_file_content".toList t
  let (_, rest) ← Text.run? isDirectiveGap rest
  between? isAnyQuote rest

/-- A quoted file path member and its value. -/
def pathMember? (t : Text) : Option (Text × Text) := do
  let (_, rest) ← t.head?.bind fun c => if isQuote c then some (c, t.drop 1) else none
  let rest ← afterWord? "filepath".toList rest
  let (_, rest) ← rest.head?.bind fun c => if isQuote c then some (c, rest.drop 1) else none
  let rest ← Text.dropChar? ':' (Text.trimStart rest)
  between? isQuote (Text.trimStart rest)

/-- The first file path member that begins on the line. -/
def firstPathMember? : Text → Option (Text × Text)
  | [] => none
  | c :: rest =>
    match pathMember? (c :: rest) with
    | some found => some found
    | none => if c = '\n' then none else firstPathMember? rest

/-- A request directive and the first file path member after it. -/
def required : Text.Recogniser Text := fun _ t => do
  let rest ← afterWord? "request_file_content".toList t
  firstPathMember? rest

/-- Whether a name ends in a non-empty extension of ASCII letters and digits. -/
def hasExtension (name : Text) : Bool :=
  match Text.cutLast? '.' name with
  | some (stem, ext) => !stem.isEmpty && !ext.isEmpty && ext.all Text.isAsciiAlnum
  | none => false

/-- A name with an extension between backticks. -/
def ticked : Text.Recogniser Text := fun _ t => do
  let rest ← Text.dropChar? '\x60' t
  let (name, rest) ← Text.run? (fun c => c != '\x60' && !Text.isBlank c) rest
  let rest ← Text.dropChar? '\x60' rest
  if hasExtension name then some (name, rest) else none

/-- Whether a name ends in a source extension. -/
def hasSourceExtension (name : Text) : Bool :=
  match Text.cutLast? '.' name with
  | some (_, ext) => sourceExtensions.contains ext
  | none => false

/-- Whether a word starts or ends between two neighbouring characters. -/
def isWordEdge (before after : Option Char) : Bool :=
  before.any Text.isWord != after.any Text.isWord

/-- A character of the first part of a bare path. -/
def isPartChar (c : Char) : Bool := Text.isWord c || c == '-'

/-- A character of a bare path after its first slash. -/
def isPathChar (c : Char) : Bool := isPartChar c || c == '/' || c == '.'

/-- The first source extension that a text starts with and that ends at the edge of a word. -/
def extensionAt? (t : Text) : Option Text :=
  sourceExtensions.find? fun ext =>
    match Text.dropPrefix? ext t with
    | some rest => isWordEdge ext.getLast? rest.head?
    | none => false

/-- The longest path of at most `len` characters of `t` that ends before a point with a source
extension, with that extension; what follows it in `t`. -/
def longestPath? (t : Text) : Nat → Option (Text × Text)
  | 0 => none
  | len + 1 =>
    match t.drop len with
    | '.' :: rest =>
      match extensionAt? rest with
      | some ext => some (t.take len ++ '.' :: ext, rest.drop ext.length)
      | none => longestPath? t len
    | _ => longestPath? t len

/-- A path with a slash and a source extension that starts and ends at the edge of a word. -/
def bare : Text.Recogniser Text := fun before t => do
  if !isWordEdge before t.head? then none
  else
    let (first, rest) ← Text.run? isPartChar t
    let rest ← Text.dropChar? '/' rest
    let (more, after) ← longestPath? rest (rest.takeWhile isPathChar).length
    return (first ++ '/' :: more, after)

/-- The paths that a plan names, in the order of the recognisers. -/
def pathsOfPlan (plan : Text) : List Text :=
  let ticks := (Text.matchAll ticked plan).filter fun name =>
    name.contains '/' || hasSourceExtension name
  (Text.matchAll reviewed plan ++ Text.matchAll required plan ++ ticks ++
    Text.matchAll bare plan).filterMap Text.nonBlank?

/-- Requests for the files that a plan names, each once. -/
def ofPlan (plan : Text) : List Request := distinct ((pathsOfPlan plan).map file)

end Request

end Mend
