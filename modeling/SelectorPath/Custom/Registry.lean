import SelectorPath.Entries
import SelectorPath.Warning

/-!
# Custom pseudo-classes

Authors define pseudo-classes of their own, each under a key: a plain name, or a
pattern between slashes that describes many names. A registry keeps the
definitions in the order in which their keys were first inserted.

## Main results

* `Registry.find?_insert_self`, `Registry.find?_insert_of_ne`: a registry is a
  map.
* `Registry.exchange_fst`: inserting gives back what was defined before.
* `Registry.keys_insert`: a new key comes last, an old key keeps its place.
-/

namespace SelectorPath

/-- What a pattern has matched in a pseudo-class. -/
structure Captures where
  /-- The groups by number; the first is the whole name. -/
  groups : List (Option Text) := []
  named : List (Text × Text) := []
deriving DecidableEq, Repr

namespace Captures

/-- The group of the given number. -/
def group? (m : Captures) (index : Nat) : Option Text :=
  (m.groups[index]?).join

/-- The group of the given name. -/
def named? (m : Captures) (name : Text) : Option Text :=
  m.named.lookup name

end Captures

/-- What a custom pseudo-class is replaced by. -/
inductive Handler where
  /-- A fixed text. -/
  | literal (replacement : Text)
  /-- A text made from the arguments, of which `arity` are expected. -/
  | function (arity : Nat) (make : List Text → Text)
  /-- A text made from the raw argument and what the pattern has matched. -/
  | onMatch (make : Option Text → Captures → Text)

/-- Whether a key is a pattern. -/
def isPatternKey (key : Text) : Bool :=
  key.head? == some '/'

/-- Custom pseudo-classes in order of first insertion. -/
structure Registry where
  entries : List (Text × Handler) := []

namespace Registry

/-- The registry without definitions. -/
def empty : Registry :=
  {}

/-- The definition under a key. -/
def find? (r : Registry) (key : Text) : Option Handler :=
  r.entries.lookup key

/-- The keys in order. -/
def keys (r : Registry) : List Text :=
  r.entries.map (·.1)

/-- The number of definitions. -/
def size (r : Registry) : Nat :=
  r.entries.length

/-- The plain names in order. -/
def names (r : Registry) : List Text :=
  r.keys.filter fun key => !isPatternKey key

/-- Whether there is no definition. -/
def isEmpty (r : Registry) : Bool :=
  r.entries.isEmpty

/-- Define a pseudo-class: the definition that it replaces, if any, and the
registry afterwards. -/
def exchange (r : Registry) (key : Text) (handler : Handler) :
    Option Handler × Registry :=
  let exchanged := Entries.exchange key handler r.entries
  (exchanged.1, ⟨exchanged.2⟩)

/-- Define a pseudo-class. -/
def insert (r : Registry) (key : Text) (handler : Handler) : Registry :=
  (r.exchange key handler).2

/-- Define a pseudo-class that stands for a fixed text. -/
def literal (r : Registry) (name replacement : Text) : Registry :=
  r.insert name (.literal replacement)

/-- Define a pseudo-class by a function of its arguments. -/
def function (r : Registry) (name : Text) (arity : Nat)
    (make : List Text → Text) : Registry :=
  r.insert name (.function arity make)

/-- Define pseudo-classes by a function of the raw argument and what the key has
matched. -/
def pattern (r : Registry) (key : Text) (make : Option Text → Captures → Text) :
    Registry :=
  r.insert key (.onMatch make)

/-- The warning due when a key is defined: a plain key should not be the name,
or a short name, of a known pseudo-class. -/
def insertWarning? (key : Text) : Option Warning :=
  if isPatternKey key then none
  else if (PseudoClass.ofName? key).isSome ||
      (PseudoClass.ofAlias? key).isSome then
    some (.shadowed key)
  else none

/-! ## The map -/

/-- A definition gives back the one that was found under its key. -/
theorem exchange_fst (r : Registry) (key : Text) (handler : Handler) :
    (r.exchange key handler).1 = r.find? key :=
  Entries.exchange_fst key handler r.entries

/-- A definition is found under its key. -/
theorem find?_insert_self (r : Registry) (key : Text) (handler : Handler) :
    (r.insert key handler).find? key = some handler :=
  Entries.lookup_put_self key handler r.entries

/-- A definition leaves the other keys alone. -/
theorem find?_insert_of_ne (r : Registry) {key other : Text} (handler : Handler)
    (h : other ≠ key) : (r.insert key handler).find? other = r.find? other :=
  Entries.lookup_put_of_ne handler r.entries h

/-- A new key comes last, an old key keeps its place. -/
theorem keys_insert (r : Registry) (key : Text) (handler : Handler) :
    (r.insert key handler).keys =
      if key ∈ r.keys then r.keys else r.keys ++ [key] :=
  Entries.keys_put key handler r.entries

end Registry

end SelectorPath
