import SelectorPath.Text.Basic

/-!
# JSON values

The values of JSON, with the fields of an object in the order of the text.
Natural numbers below `2^64` are known by their value, all other numbers as they
are written.
-/

namespace SelectorPath

/-- A JSON number. -/
inductive Json.Number where
  /-- An integer from zero up to `2^64 - 1`. -/
  | natural (n : Nat)
  /-- Any other number, as it is written. -/
  | other (numeral : Text)
deriving DecidableEq, Repr

/-- A JSON value. -/
inductive Json where
  | null
  | bool (b : Bool)
  | number (n : Json.Number)
  | string (t : Text)
  | array (items : List Json)
  | object (fields : List (Text × Json))
deriving Repr

/-- The field of an object. -/
def Json.field? (fields : List (Text × Json)) (name : Text) : Option Json :=
  fields.lookup name

end SelectorPath
