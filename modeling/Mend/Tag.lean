import Mend.Text.Basic

/-!
# Section tags

A reply is divided by delimiters: a name between `%_` and `_%`. Every name belongs to exactly one
tag. Canonical names are matched as they are; other spellings are brought to lower case with
underscores and looked up among the aliases; every other name asks for files, so that an unknown
section is read as requests instead of being lost.

- `Tag.ofName`: the tag of a name;
- `Tag.marker`: the canonical delimiter of a tag;
- `TagLine.find?`: the first delimiter on a line and what follows it.

Main statement: the delimiter of each canonical name is found and read as the tag it belongs to
(`TagLine.find?_marker`).
-/

namespace Mend

/-- What a section of a reply holds. -/
inductive Tag where
  /-- The analysis so far. -/
  | thought
  /-- The intended steps. -/
  | plan
  /-- What the finished change must achieve. -/
  | goals
  /-- Files and directories to be shown. -/
  | requests
  /-- A patch. -/
  | patch
  /-- A remark. -/
  | comment
  /-- Advisory notes; the content is dropped. -/
  | ignored
  /-- Ends the reply: the findings of a final review. -/
  | verificationReport
  /-- Ends the reply: asks for a final review. -/
  | finalCheck
  deriving DecidableEq, Repr

namespace Tag

/-- The marker that ends a session wherever it stands in a reply. -/
def finMarker : Text := "%%_Fin_%%".toList

/-- The marker that claims nothing needs to change, wherever it stands in a reply. -/
def noChangesMarker : Text := "%_No_Changes_Needed_%".toList

/-- The names that are matched as they are. -/
def canonicalNames : List (Text × Tag) :=
  [("Thought".toList, thought),
   ("Plan".toList, plan),
   ("Correction_Goals".toList, goals),
   ("Reply Required".toList, requests),
   ("Modified".toList, patch),
   ("Comment".toList, comment),
   ("Verification_Report".toList, verificationReport),
   ("Ready_For_Final_Check".toList, finalCheck)]

/-- The names that are matched in lower case with underscores. -/
def aliases : List (Text × Tag) :=
  [("thought".toList, thought),
   ("thoughts".toList, thought),
   ("plan".toList, plan),
   ("correction_goals".toList, goals),
   ("correction_goal".toList, goals),
   ("reply_required".toList, requests),
   ("modified".toList, patch),
   ("comment".toList, comment),
   ("comments".toList, comment),
   ("verification".toList, ignored),
   ("verification_report".toList, ignored),
   ("ready_for_final_check".toList, finalCheck)]

/-- A name in lower case, with underscores for spaces and hyphens. -/
def foldName (name : Text) : Text :=
  name.map fun c => if c = ' ' ∨ c = '-' then '_' else c.toLower

/-- The tag of a name. -/
def ofName (name : Text) : Tag :=
  match canonicalNames.lookup name.trim with
  | some tag => tag
  | none => (aliases.lookup (foldName name.trim)).getD requests

/-- The canonical delimiter of a tag. -/
def marker : Tag → Text
  | thought => "%_Thought_%".toList
  | plan => "%_Plan_%".toList
  | goals => "%_Correction_Goals_%".toList
  | requests => "%_Reply Required_%".toList
  | patch => "%_Modified_%".toList
  | comment => "%_Comment_%".toList
  | ignored => "%_Verification_%".toList
  | verificationReport => "%_Verification_Report_%".toList
  | finalCheck => "%_Ready_For_Final_Check_%".toList

/-- Whether the delimiter of the tag ends the reply. -/
def isTerminal (tag : Tag) : Bool := tag == verificationReport || tag == finalCheck

end Tag

/-- A delimiter found on a line. -/
structure TagLine where
  /-- The tag of the delimiter's name. -/
  tag : Tag
  /-- What follows the delimiter on its line, trimmed. -/
  rest : Text
  deriving DecidableEq, Repr

namespace TagLine

/-- The characters of a name after its first letter. -/
def isNameChar (c : Char) : Bool := c.isAlphanum || c == ' ' || c == '_' || c == '-'

/-- What opens a delimiter. -/
def opener : Text := ['%', '_']

/-- What closes a delimiter. -/
def closer : Text := ['_', '%']

/-- The name up to the first closer, and the text after that; the part of a name after its first
letter is `taken`, last character first. -/
def nameTail? (taken : Text) : Text → Option (Text × Text)
  | [] => none
  | c :: rest =>
    if closer.isPrefixOf (c :: rest) then some (taken.reverse, rest.drop 1)
    else if isNameChar c then nameTail? (c :: taken) rest
    else none

/-- The name of a delimiter at the start of a text, and the text after the delimiter. -/
def nameAtStart? (t : Text) : Option (Text × Text) :=
  match Text.dropPrefix? opener t with
  | some (c :: rest) => if c.isAlpha then nameTail? [c] rest else none
  | _ => none

/-- The name of the first delimiter of a text, and the text after it. -/
def firstName? : Text → Option (Text × Text)
  | [] => none
  | c :: rest =>
    match nameAtStart? (c :: rest) with
    | some found => some found
    | none => firstName? rest

/-- The first delimiter on a line. -/
def find? (line : Text) : Option TagLine :=
  (firstName? line).map fun (name, rest) => ⟨Tag.ofName name, rest.trim⟩

/-- The canonical delimiter of a tag is found and read as that tag. -/
theorem find?_marker (tag : Tag) : find? tag.marker = some ⟨tag, []⟩ := by
  cases tag <;> rfl

end TagLine

end Mend
