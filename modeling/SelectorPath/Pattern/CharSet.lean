import SelectorPath.Text.CaseFolding

/-!
# Sets of characters

What a character in a pattern may be, as it is written: single characters,
ranges, named sets, and brackets in which sets are joined, intersected or taken
from each other.

Letter case is ignored at every bracket and at both sides of an operator, before
the bracket is negated: a character belongs to a bracket if one of its case
variants does.
-/

namespace SelectorPath.Pattern

/-- A set of characters as a pattern writes it. -/
inductive CharSet where
  | none
  | char (c : Char)
  /-- The characters from `low` to `high`. -/
  | range (low high : Char)
  /-- The characters with a property. -/
  | such (accepts : Char → Bool)
  | union (first second : CharSet)
  | inter (first second : CharSet)
  /-- What is in the first set and not in the second. -/
  | minus (first second : CharSet)
  /-- What is in exactly one of the two sets. -/
  | either (first second : CharSet)
  /-- What a pair of brackets accepts. -/
  | bracket (isNegative : Bool) (body : CharSet)

/-- Whether a character is accepted, or one of its case variants where case is
ignored. -/
def acceptsVariant (ignoreCase : Bool) (accepts : Char → Bool) (c : Char) :
    Bool :=
  if ignoreCase then (Text.caseVariants c).any accepts else accepts c

/-- Whether a character belongs to a set. -/
def CharSet.has (ignoreCase : Bool) : CharSet → Char → Bool
  | none, _ => false
  | char c, x => x == c
  | range low high, x => low ≤ x && x ≤ high
  | such accepts, x => accepts x
  | union first second, x => first.has ignoreCase x || second.has ignoreCase x
  | inter first second, x =>
    acceptsVariant ignoreCase (first.has ignoreCase) x
      && acceptsVariant ignoreCase (second.has ignoreCase) x
  | minus first second, x =>
    acceptsVariant ignoreCase (first.has ignoreCase) x
      && !acceptsVariant ignoreCase (second.has ignoreCase) x
  | either first second, x =>
    acceptsVariant ignoreCase (first.has ignoreCase) x
      != acceptsVariant ignoreCase (second.has ignoreCase) x
  | bracket isNegative body, x =>
    acceptsVariant ignoreCase (body.has ignoreCase) x != isNegative

/-- The set without the characters of `set`. -/
def CharSet.complement (set : CharSet) : CharSet :=
  .bracket true set

/-! ## Named sets of ASCII characters -/

/-- The set that a name between `[:` and `:]` stands for. -/
def asciiSet? (name : Text) : Option CharSet :=
  let table : List (Text × (Char → Bool)) :=
    [("alnum", Char.isAlphanum), ("alpha", Char.isAlpha),
      ("ascii", fun c => c.toNat < 0x80),
      ("blank", fun c => c == '\t' || c == ' '),
      ("cntrl", fun c => c.toNat < 0x20 || c == '\x7f'),
      ("digit", Char.isDigit), ("graph", fun c => '!' ≤ c && c ≤ '~'),
      ("lower", Char.isLower), ("print", fun c => ' ' ≤ c && c ≤ '~'),
      ("punct", fun c => '!' ≤ c && c ≤ '~' && !c.isAlphanum),
      ("space", fun c => c == ' ' || ('\t' ≤ c && c ≤ '\r')),
      ("upper", Char.isUpper), ("word", fun c => c.isAlphanum || c == '_'),
      ("xdigit", fun c =>
        c.isDigit || ('a' ≤ c && c ≤ 'f') || ('A' ≤ c && c ≤ 'F'))]
  (table.lookup name).map .such

end SelectorPath.Pattern
