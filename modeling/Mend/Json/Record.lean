import Mend.Json.Skip
import Mend.Json.Writer

/-!
# Reading records from JSON

A record is read from an object that has its fields as members, or from an array that has them in
order (`RecordForm.read`). Every field has a kind (`FieldKind`), and a value of another kind is
refused where it stands. A field may come once only, and a field that may be null may also be
missing from an object. Members that are not asked for are passed over.

A text that is refused gives the first fault and its place.
-/

namespace Mend

/-- What the value of a field must be. -/
inductive FieldKind where
  /-- A text. -/
  | text
  /-- A text or null. -/
  | optionalText
  /-- An array of texts. -/
  | texts
  /-- A whole number of 32 bits. -/
  | word
  /-- A number. -/
  | float
  /-- One of some names, as a text or as the only name of an object, with null under it. -/
  | oneOf (names : List Text)
  deriving DecidableEq, Repr

/-- A field of a record. -/
structure RecordField where
  /-- The name. -/
  name : Text
  /-- What the value must be. -/
  kind : FieldKind
  deriving DecidableEq, Repr

/-- The form of a record. -/
structure RecordForm where
  /-- What the record is called in faults. -/
  name : Text
  /-- The fields, in order. -/
  fields : List RecordField
  deriving DecidableEq, Repr

namespace Json

/-! ## Single values -/

/-- The text value after its opening quote. -/
def scanText (t : Text) : Except JsonStop (Text × Text) := do
  let rest ← skipText .strict t
  return (((readText t).map Prod.fst).getD [], rest)

/-- The number of digits up to the one with which a number reaches the bound of exponents. -/
def digitsToBound (n : Nat) : Text → Nat
  | [] => 0
  | c :: rest =>
    let next := n * 10 + (c.toNat - '0'.toNat)
    if c.isDigit && next < JsonNumber.exponentBound then digitsToBound next rest + 1 else 1

/-- Where the reader stops in a number that is too large: at the digit with which its exponent
reaches the bound, or after the number. -/
def tooLarge (t after : Text) : JsonStop :=
  let shown := t.take (t.length - after.length)
  match shown.dropWhile fun c => !(c == 'e' || c == 'E') with
  | [] => ⟨.numberTooLarge, after, 0⟩
  | _ :: exponent =>
    let digits := exponent.dropWhile (· == '+')
    if (Text.toNat? digits).any (JsonNumber.exponentBound ≤ ·) then
      ⟨.numberTooLarge, digits.drop (digitsToBound 0 digits) ++ after, 0⟩
    else ⟨.numberTooLarge, after, 0⟩

/-- The number at the start of a text. -/
def scanNumber (t : Text) : Except JsonStop (JsonNumber × Text) := do
  let rest ← skipNumber .strict t
  match JsonNumber.read? t with
  | some (n, _) => return (n, rest)
  | none => .error (tooLarge t rest)

/-- What a number is called in faults. -/
def describeNumber (n : JsonNumber) : Text :=
  let what :=
    match n with
    | .float _ => "floating point ".toList
    | _ => "integer ".toList
  what ++ JsonFault.ticked n.write

/-- The stop at a value when another kind is expected. -/
def mismatch (expected t : Text) : JsonStop :=
  let wrong (found : Text) (rest : Text) : JsonStop := ⟨.wrongKind found expected, rest, 0⟩
  let word (shown : String) (letters rest : Text) : JsonStop :=
    match skipWord letters rest with
    | .ok rest => wrong shown.toList rest
    | .error s => s
  match t with
  | [] => ⟨.endOfValue, [], 0⟩
  | 'n' :: rest => word "null" "ull".toList rest
  | 't' :: rest => word "boolean \x60true\x60" "rue".toList rest
  | 'f' :: rest => word "boolean \x60false\x60" "alse".toList rest
  | '"' :: rest =>
    match scanText rest with
    | .ok (s, rest) => wrong ("string ".toList ++ s.quoted) rest
    | .error s => s
  | '[' :: rest => wrong "sequence".toList ('[' :: rest)
  | '\x7b' :: rest => wrong "map".toList ('\x7b' :: rest)
  | c :: rest =>
    if startsNumber c then
      match scanNumber (c :: rest) with
      | .ok (n, rest) => wrong (describeNumber n) rest
      | .error s => s
    else .ahead .noValue (c :: rest)

/-- A text value, after white space. -/
def scanString (expected : Text) (t : Text) : Except JsonStop (Text × Text) :=
  match skipGap t with
  | '"' :: rest => scanText rest
  | other => .error (mismatch expected other)

/-- A number, after white space. -/
def scanNumeral (expected : Text) (t : Text) : Except JsonStop (JsonNumber × Text) :=
  match skipGap t with
  | [] => .error ⟨.endOfValue, [], 0⟩
  | c :: rest =>
    if startsNumber c then scanNumber (c :: rest) else .error (mismatch expected (c :: rest))

/-! ## Fields -/

/-- What a text is called in faults. -/
def textName : Text := "a string".toList

/-- A text value or null. -/
def scanOptional (t : Text) : Except JsonStop (Json × Text) :=
  match skipGap t with
  | 'n' :: rest => (skipWord "ull".toList rest).map fun rest => (.null, rest)
  | other => (scanString textName other).map fun (s, rest) => (.text s, rest)

/-- A whole number of 32 bits. -/
def scanWord (t : Text) : Except JsonStop (Json × Text) := do
  let (n, rest) ← scanNumeral "u32".toList t
  match n with
  | .nat k =>
    if k < 2 ^ 32 then return (.number n, rest)
    else .error ⟨.wrongValue (describeNumber n) "u32".toList, rest, 0⟩
  | .neg _ => .error ⟨.wrongValue (describeNumber n) "u32".toList, rest, 0⟩
  | .float _ => .error ⟨.wrongKind (describeNumber n) "u32".toList, rest, 0⟩

/-- Text values up to the bracket that closes an array; at most `fuel` of them. -/
def scanTexts : Nat → Text → Except JsonStop (List Json × Text)
  | 0, t => .error ⟨.endOfArray, t, 0⟩
  | fuel + 1, t => do
    let (s, rest) ← scanString textName t
    match skipGap rest with
    | [] => .error ⟨.endOfArray, [], 0⟩
    | ']' :: rest => return ([.text s], rest)
    | ',' :: rest =>
      match skipGap rest with
      | ']' :: after => .error (.ahead .extraComma (']' :: after))
      | items =>
        let (more, rest) ← scanTexts fuel items
        return (.text s :: more, rest)
    | rest => .error (.ahead .noItemEnd rest)

/-- An array of text values. -/
def scanArray (t : Text) : Except JsonStop (Json × Text) :=
  match skipGap t with
  | '[' :: rest =>
    match skipGap rest with
    | [] => .error ⟨.endOfArray, [], 0⟩
    | ']' :: after => .ok (.array [], after)
    | items => (scanTexts (items.length + 1) items).map fun (vs, rest) => (.array vs, rest)
  | other => .error (mismatch "a sequence".toList other)

/-- One of some names. -/
def scanName (names : List Text) (t : Text) : Except JsonStop (Text × Text) := do
  let (s, rest) ← scanString "variant identifier".toList t
  if s ∈ names then return (s, rest) else .error ⟨.unknownName s names, rest, 0⟩

/-- Null where nothing else may stand. -/
def scanNull (t : Text) : Skipped :=
  match skipGap t with
  | 'n' :: rest => skipWord "ull".toList rest
  | other => .error (mismatch "unit".toList other)

/-- One of some names, as a text or as the only name of an object. -/
def scanChoice (names : List Text) (t : Text) : Except JsonStop (Json × Text) :=
  match skipGap t with
  | [] => .error ⟨.endOfValue, [], 0⟩
  | '"' :: rest => (scanName names ('"' :: rest)).map fun (s, rest) => (.text s, rest)
  | '\x7b' :: rest => do
    let (s, rest) ← scanName names rest
    match skipGap rest with
    | [] => .error ⟨.endOfObject, [], 0⟩
    | ':' :: rest =>
      let rest ← scanNull rest
      match skipGap rest with
      | [] => .error ⟨.endOfObject, [], 0⟩
      | '\x7d' :: rest => return (.text s, rest)
      | rest => .error ⟨.noValue, rest, 0⟩
    | rest => .error (.ahead .noColon rest)
  | other => .error (.ahead .noValue other)

end Json

namespace FieldKind

/-- Whether a field may be missing from an object. -/
def isOptional (k : FieldKind) : Bool := k = optionalText

/-- The value of a field. A choice is the text of its name. -/
def scan : FieldKind → Text → Except JsonStop (Json × Text)
  | text, t => (Json.scanString Json.textName t).map fun (s, rest) => (.text s, rest)
  | optionalText, t => Json.scanOptional t
  | texts, t => Json.scanArray t
  | word, t => Json.scanWord t
  | float, t => (Json.scanNumeral "f64".toList t).map fun (n, rest) => (.number n, rest)
  | oneOf names, t => Json.scanChoice names t

end FieldKind

namespace RecordForm

/-- The values of fields by name. -/
abbrev Values := List (Text × Json)

/-- The values in an array, from the item with a number on. -/
def scanItems (form : RecordForm) (count : Nat) :
    List RecordField → Text → Except JsonStop (Values × Text)
  | [], t =>
    match Json.skipGap t with
    | [] => .error ⟨.endOfArray, [], 0⟩
    | ']' :: rest => .ok ([], rest)
    | ',' :: rest =>
      match Json.skipGap rest with
      | ']' :: after => .error (.ahead .extraComma (']' :: after))
      | after => .error (.ahead .extraText after)
    | rest => .error (.ahead .extraText rest)
  | field :: more, t =>
    let tooShort := form.name ++ " with ".toList ++ Text.ofNat form.fields.length ++
      " elements".toList
    let next (items : Text) : Except JsonStop (Values × Text) := do
      let (v, rest) ← field.kind.scan items
      let (vs, rest) ← form.scanItems (count + 1) more rest
      return ((field.name, v) :: vs, rest)
    match Json.skipGap t with
    | [] => .error ⟨.endOfArray, [], 0⟩
    | ']' :: rest => .error ⟨.tooShort count tooShort, rest, 0⟩
    | rest =>
      if count = 0 then next rest
      else
        match rest with
        | ',' :: rest =>
          match Json.skipGap rest with
          | [] => .error ⟨.endOfValue, [], 0⟩
          | ']' :: after => .error (.ahead .extraComma (']' :: after))
          | items => next items
        | rest => .error (.ahead .noItemEnd rest)

/-- The first field that must be there and is not. -/
def missing? (form : RecordForm) (found : Values) : Option Text :=
  (form.fields.find? fun f => !f.kind.isOptional && (found.lookup f.name).isNone).map (·.name)

/-- The place after the brace that may follow a repeated name. -/
def afterRepeated (t : Text) : Text :=
  match Json.skipGap t with
  | '\x7d' :: rest => rest
  | rest => rest

/-- The value of a member and the text after it; a member that is no field has no value. -/
def scanMember (form : RecordForm) (found : Values) (name rest : Text) :
    Except JsonStop (Values × Text) :=
  match form.fields.find? fun f => f.name = name with
  | some field =>
    if (found.lookup name).isSome then .error ⟨.repeated name, afterRepeated rest, 0⟩
    else
      match Json.skipGap rest with
      | [] => .error ⟨.endOfObject, [], 0⟩
      | ':' :: rest => (field.kind.scan rest).map fun (v, rest) => (found ++ [(name, v)], rest)
      | rest => .error (.ahead .noColon rest)
  | none =>
    match Json.skipGap rest with
    | [] => .error ⟨.endOfObject, [], 0⟩
    | ':' :: rest =>
      (Json.skipValue (2 * rest.length + 2) rest).map fun rest => (found, rest)
    | rest => .error (.ahead .noColon rest)

/-- The values of an object that ends before a text. -/
def close (form : RecordForm) (found : Values) (rest : Text) : Except JsonStop (Values × Text) :=
  match form.missing? found with
  | some name => .error ⟨.missing name, rest, 0⟩
  | none => .ok (found, rest)

/-- The values in an object from a name on; at most `fuel` members. -/
def scanMembers (form : RecordForm) : Nat → Values → Text → Except JsonStop (Values × Text)
  | 0, _, t => .error ⟨.endOfObject, t, 0⟩
  | fuel + 1, found, t =>
    match Json.skipGap t with
    | [] => .error ⟨.endOfValue, [], 0⟩
    | '"' :: rest => do
      let (name, rest) ← Json.scanText rest
      let (found, rest) ← form.scanMember found name rest
      match Json.skipGap rest with
      | [] => .error ⟨.endOfObject, [], 0⟩
      | '\x7d' :: rest => form.close found rest
      | ',' :: rest => form.scanMembers fuel found rest
      | rest => .error (.ahead .noMemberEnd rest)
    | '\x7d' :: rest => .error (.ahead .extraComma ('\x7d' :: rest))
    | rest => .error (.ahead .nameNotText rest)

/-- The values at the start of a text. -/
def scan (form : RecordForm) (t : Text) : Except JsonStop (Values × Text) :=
  match Json.skipGap t with
  | '[' :: rest => form.scanItems 0 form.fields rest
  | '\x7b' :: rest =>
    match Json.skipGap rest with
    | [] => .error ⟨.endOfObject, [], 0⟩
    | '\x7d' :: after => form.close [] after
    | members => form.scanMembers (members.length + 1) [] members
  | other => .error (Json.mismatch form.name other)

/-- The values of the record that a text holds, with white space around it and nothing else. -/
def read (form : RecordForm) (t : Text) : Except JsonStop Values := do
  let (values, rest) ← form.scan t
  match Json.skipGap rest with
  | [] => return values
  | rest => .error (.ahead .extraText rest)

end RecordForm

end Mend
