import SelectorPath.Text.Basic

/-!
# Tables of code points

Character classes and case maps that reach beyond ASCII are data. A class is a
list of closed ranges of code points; a case map is a list of runs, each moving
every code point of an arithmetic progression by the same distance.
-/

namespace SelectorPath.Text

/-- Closed ranges of code points. -/
abbrev Ranges := List (Nat × Nat)

/-- Whether a code point lies in one of the ranges. -/
def Ranges.has (ranges : Ranges) (c : Char) : Bool :=
  ranges.any fun (first, last) => first ≤ c.toNat && c.toNat ≤ last

/-- The code points `first`, `first + step`, … up to `last`, each moved by
`shift`. -/
structure Run where
  first : Nat
  last : Nat
  step : Nat
  shift : Int
deriving Repr, DecidableEq

/-- Whether a run moves the code point `n`. -/
def Run.covers (r : Run) (n : Nat) : Bool :=
  r.first ≤ n && n ≤ r.last && (n - r.first) % r.step == 0

/-- The code point that a run moves `n` to. -/
def Run.move (r : Run) (n : Nat) : Nat :=
  (Int.ofNat n + r.shift).toNat

/-- The image of a character under the first run that covers it, itself where
none does. -/
def moved (runs : List Run) (c : Char) : Char :=
  match runs.find? (·.covers c.toNat) with
  | some r => Char.ofNat (r.move c.toNat)
  | none => c

end SelectorPath.Text
