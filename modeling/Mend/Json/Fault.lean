import Mend.Json.Value
import Mend.Text.Quoted
import Mend.Text.Utf8

/-!
# What is wrong with JSON

The causes for which a text is refused as JSON or as the form of a record (`JsonFault`), and where a
reader stops with one (`JsonStop`). A stop is a suffix of the text and a number of bytes in it, so
that readers need not count; its line and its column are found from the whole text
(`JsonStop.place`).
-/

namespace Mend

/-- What is wrong with a text. -/
inductive JsonFault where
  /-- The text ends inside an array. -/
  | endOfArray
  /-- The text ends inside an object. -/
  | endOfObject
  /-- The text ends inside a text value. -/
  | endOfText
  /-- The text ends where a value is expected, or inside one. -/
  | endOfValue
  /-- No colon follows a name. -/
  | noColon
  /-- Neither a comma nor a bracket follows an item. -/
  | noItemEnd
  /-- Neither a comma nor a brace follows a member. -/
  | noMemberEnd
  /-- A word is begun and is none. -/
  | unknownWord
  /-- No value starts here. -/
  | noValue
  /-- A backslash is followed by something that it does not escape. -/
  | badEscape
  /-- A number is not well-formed. -/
  | badNumber
  /-- A number is too large. -/
  | numberTooLarge
  /-- A control stands inside a text value. -/
  | control
  /-- The name of a member is no text value. -/
  | nameNotText
  /-- A half of a surrogate pair is not where it belongs. -/
  | halfPair
  /-- The first half of a surrogate pair is not followed by an escape. -/
  | openPair
  /-- A bracket or a brace follows a comma. -/
  | extraComma
  /-- Something follows the value. -/
  | extraText
  /-- A value is of another kind than the expected one. -/
  | wrongKind (found expected : Text)
  /-- A value is of the expected kind and out of its range. -/
  | wrongValue (found expected : Text)
  /-- A name is none of the expected ones. -/
  | unknownName (found : Text) (expected : List Text)
  /-- A record has too few items. -/
  | tooShort (length : Nat) (expected : Text)
  /-- A field is missing. -/
  | missing (name : Text)
  /-- A field comes twice. -/
  | repeated (name : Text)
  deriving DecidableEq, Repr

namespace JsonFault

/-- A name between backticks. -/
def ticked (name : Text) : Text := '\x60' :: name ++ ['\x60']

/-- The text of a fault. -/
def message : JsonFault → Text
  | endOfArray => "EOF while parsing a list".toList
  | endOfObject => "EOF while parsing an object".toList
  | endOfText => "EOF while parsing a string".toList
  | endOfValue => "EOF while parsing a value".toList
  | noColon => "expected ".toList ++ ticked [':']
  | noItemEnd => "expected ".toList ++ ticked [','] ++ " or ".toList ++ ticked [']']
  | noMemberEnd => "expected ".toList ++ ticked [','] ++ " or ".toList ++ ticked ['\x7d']
  | unknownWord => "expected ident".toList
  | noValue => "expected value".toList
  | badEscape => "invalid escape".toList
  | badNumber => "invalid number".toList
  | numberTooLarge => "number out of range".toList
  | control => "control character (\\u0000-\\u001F) found while parsing a string".toList
  | nameNotText => "key must be a string".toList
  | halfPair => "lone leading surrogate in hex escape".toList
  | openPair => "unexpected end of hex escape".toList
  | extraComma => "trailing comma".toList
  | extraText => "trailing characters".toList
  | wrongKind found expected =>
    "invalid type: ".toList ++ found ++ ", expected ".toList ++ expected
  | wrongValue found expected =>
    "invalid value: ".toList ++ found ++ ", expected ".toList ++ expected
  | unknownName found expected =>
    "unknown variant ".toList ++ ticked found ++ ", expected one of ".toList ++
      Text.joinWith [',', ' '] (expected.map ticked)
  | tooShort length expected =>
    "invalid length ".toList ++ Text.ofNat length ++ ", expected ".toList ++ expected
  | missing name => "missing field ".toList ++ ticked name
  | repeated name => "duplicate field ".toList ++ ticked name

end JsonFault

/-- A fault and where a reader stops with it. -/
structure JsonStop where
  /-- The fault. -/
  fault : JsonFault
  /-- The text from the stop on, but for the bytes in `offset`. -/
  rest : Text
  /-- How many bytes of `rest` the reader has taken. -/
  offset : Nat := 0
  deriving DecidableEq, Repr

namespace JsonStop

/-- The stop at the next character, of which a reader takes the first byte. -/
def ahead (fault : JsonFault) (rest : Text) : JsonStop := ⟨fault, rest, 1⟩

/-- The line, counted from one, and the column of a stop in a text. The column is the number of
bytes that were taken of the line. -/
def place (whole : Text) (s : JsonStop) : Nat × Nat :=
  let left := s.rest.byteLength
  let seen := whole.toBytes.toList.take (whole.byteLength - left + min s.offset left)
  (seen.count 10 + 1, (seen.reverse.takeWhile (· != 10)).length)

/-- The text of a stop. -/
def message (whole : Text) (s : JsonStop) : Text :=
  let (line, column) := s.place whole
  s.fault.message ++ " at line ".toList ++ Text.ofNat line ++ " column ".toList ++ Text.ofNat column

end JsonStop

end Mend
