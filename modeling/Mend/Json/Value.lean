import Mend.Text.Basic

/-!
# JSON values

A JSON value. Numbers are whole numbers of at most 64 bits, kept exactly, or binary floating-point
numbers. A record is written as an object with its members in the order of its fields. An object
whose members come from a text has them in ascending order of their names, each name once, with the
last member of a name (`Json.ofMembers`).
-/

namespace Mend

/-- A JSON number. -/
inductive JsonNumber where
  /-- A whole number that is not negative. -/
  | nat (n : Nat)
  /-- The negative of a positive whole number. -/
  | neg (n : Nat)
  /-- Any other number, rounded. -/
  | float (x : Float)

/-- A JSON value. -/
inductive Json where
  | null
  | bool (b : Bool)
  | number (n : JsonNumber)
  | text (t : Text)
  | array (items : List Json)
  | object (members : List (Text × Json))
  deriving Inhabited

namespace Json

/-- Members with one more, in the place of an equal name or before the first greater one. -/
def insertMember (name : Text) (value : Json) : List (Text × Json) → List (Text × Json)
  | [] => [(name, value)]
  | (other, old) :: rest =>
    if name = other then (name, value) :: rest
    else if Text.le name other then (name, value) :: (other, old) :: rest
    else (other, old) :: insertMember name value rest

/-- The object with the given members; of several with one name, the last. -/
def ofMembers (members : List (Text × Json)) : Json :=
  .object (members.foldl (fun kept (name, value) => insertMember name value kept) [])

/-- The member of an object. -/
def member? (name : Text) : Json → Option Json
  | object members => members.lookup name
  | _ => none

/-- The text of a text value. -/
def text? : Json → Option Text
  | text t => some t
  | _ => none

end Json

end Mend
