import Mend.Text.Basic

/-!
# TOML values

The values of a TOML document and how typed values are taken out of them. Floating-point numbers and
dates are kept as written, since nothing here computes with them.

A record is usually a table with its fields by name. It may also be an array with its fields in
order, and a date counts as a record without fields (`Toml.record?`).
-/

namespace Mend

/-- A TOML value. -/
inductive Toml where
  | text (t : Text)
  | int (n : Int)
  | bool (b : Bool)
  /-- A floating-point number as written, without underscores. -/
  | float (written : Text)
  /-- A date, a time or both, as written. -/
  | moment (written : Text)
  | array (items : List Toml)
  /-- A table with its entries in order; no name comes twice. -/
  | table (entries : List (Text × Toml))
  deriving Inhabited

namespace Toml

/-- The text of a text value. -/
def text? : Toml → Option Text
  | text t => some t
  | _ => none

/-- The truth value of a boolean. -/
def bool? : Toml → Option Bool
  | bool b => some b
  | _ => none

/-- The number of a whole number from zero to less than `bound`. -/
def nat? (bound : Nat) : Toml → Option Nat
  | int (.ofNat n) => if n < bound then some n else none
  | _ => none

/-- The items of an array. -/
def items? : Toml → Option (List Toml)
  | array items => some items
  | _ => none

/-- The items of an array of texts. -/
def texts? (v : Toml) : Option (List Text) := v.items?.bind fun items => items.mapM text?

/-- The fields of a record by name. An array has the fields in the order of `names`; unless `short`
is allowed, it has them all. -/
def record? (names : List Text) (short : Bool) : Toml → Option (List (Text × Toml))
  | table entries => some entries
  | moment _ => some []
  | array items =>
    if short || names.length ≤ items.length then some (names.zip items) else none
  | _ => none

/-- A field that has a default. -/
def fieldOr {α : Type} (fields : List (Text × Toml)) (name : String) (read : Toml → Option α)
    (default : α) : Option α :=
  match fields.lookup name.toList with
  | none => some default
  | some v => read v

/-- A field that may be absent. -/
def field? {α : Type} (fields : List (Text × Toml)) (name : String) (read : Toml → Option α) :
    Option (Option α) :=
  fieldOr fields name (fun v => (read v).map some) none

/-- A field that must be there. -/
def field {α : Type} (fields : List (Text × Toml)) (name : String) (read : Toml → Option α) :
    Option α :=
  (fields.lookup name.toList).bind read

end Toml

end Mend
