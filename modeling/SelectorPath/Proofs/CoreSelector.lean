import SelectorPath.Token.Basic
import SelectorPath.Proofs.Document
import SelectorPath.Proofs.LetterCase
import SelectorPath.Proofs.Lexing

/-!
# Core selectors

The selectors that every CSS engine knows: compounds of a type selector or `*`,
attribute tests and child positions, with the four combinators between them.
Their meaning is the usual one, stated over documents by a function that can be
run: an element is matched if its compound accepts it and one of the elements
that the combinator may come from is matched by what stands in front.

Behind `~` and `+` a compound has no child position here.
-/

namespace SelectorPath.Core

/-! ## Selectors -/

/-- A name in small ASCII letters, digits, `_` and `-` that starts with a letter
or `_`. Identifiers of CSS that start with a hyphen, such as `-x`, are left out,
as are those with escapes, with capital letters or beyond ASCII. -/
structure Identifier where
  text : Text
  isName : XPath.isName text = true
  isSmall : text.isSmall = true

/-- A text that can stand in single quotes. -/
structure Quotable where
  text : Text
  quoteless : '\'' ∉ text

/-- The place of an element among its siblings. -/
inductive Position where
  | first
  | last
  | only
deriving DecidableEq, Repr

/-- A condition on an element. -/
inductive Condition where
  | present (name : Identifier)
  | equals (name : Identifier) (value : Quotable)
  | position (p : Position)

/-- What a compound starts with. -/
inductive Lead where
  | none
  | universal
  | tag (name : Identifier)

def Condition.isPosition : Condition → Bool
  | position _ => true
  | _ => false

def Lead.isNone : Lead → Bool
  | none => true
  | _ => false

/-- A compound: conditions on one element. -/
structure Compound where
  lead : Lead
  conditions : List Condition
  nonempty : lead.isNone = false ∨ conditions ≠ []

/-- Whether a compound asks for no child position. -/
def Compound.isPositionless (c : Compound) : Bool :=
  c.conditions.all fun x => !x.isPosition

/-- Compounds with combinators between them. -/
inductive Selector where
  | compound (c : Compound)
  | join (left : Selector) (k : Combinator) (c : Compound)
    (positionless : k.isSibling = true → c.isPositionless = true)

/-! ## Tokens -/

def Position.name : Position → Text
  | first => "first-child"
  | last => "last-child"
  | only => "only-child"

def Condition.token : Condition → Token
  | present name => .attr name.text .present none
  | equals name value => .attr name.text .equals (some value.text)
  | position p => .pseudoClass p.name none

def Lead.tokens : Lead → Stream
  | none => []
  | universal => [.universal]
  | tag name => [.tag name.text]

def Compound.tokens (c : Compound) : Stream :=
  c.lead.tokens ++ c.conditions.map Condition.token

/-- The selector as a stream. -/
def Selector.tokens : Selector → Stream
  | compound c => c.tokens
  | join left k c _ => left.tokens ++ .combinator k :: c.tokens

/-! ## Matching -/

/-- Whether an element with the given index among `count` children satisfies a
condition. -/
def Condition.accepts (e : Element) (index count : Nat) : Condition → Bool
  | present name => (e.attribute? name.text).isSome
  | equals name value => e.attribute? name.text == some value.text
  | position .first => index == 0
  | position .last => index + 1 == count
  | position .only => count == 1

def Lead.accepts (e : Element) : Lead → Bool
  | tag name => e.name == name.text
  | _ => true

/-- Whether a compound accepts a node, which must be an element. -/
def Compound.accepts (doc : Document) (c : Compound) : Node → Bool
  | [] => false
  | i :: parent =>
    (doc.find? (i :: parent)).any fun e =>
      c.lead.accepts e &&
        c.conditions.all (Condition.accepts e i (doc.childCount parent))

/-- The nodes above a node, nearest first. -/
def ancestors : Node → List Node
  | [] => []
  | _ :: parent => parent :: ancestors parent

/-- The nodes from which a combinator leads to the given one. -/
def origins (k : Combinator) (n : Node) : List Node :=
  match k, n with
  | .descendant, n => ancestors n
  | .child, _ :: parent => [parent]
  | .sibling, i :: parent => (List.range i).map fun j => j :: parent
  | .adjacent, (i + 1) :: parent => [i :: parent]
  | _, _ => []

/-- Whether a selector matches a node. -/
def Selector.accepts (doc : Document) : Selector → Node → Bool
  | compound c, n => c.accepts doc n
  | join left k c _, n =>
    c.accepts doc n && (origins k n).any (left.accepts doc)

/-- A node is a descendant of those that its parent's address ends with. -/
theorem mem_origins_descendant {m parent : Node} {i : Nat} :
    m ∈ origins .descendant (i :: parent) ↔ m <:+ parent := by
  show m ∈ parent :: ancestors parent ↔ _
  induction parent with
  | nil => simp [ancestors]
  | cons j parent ih => rw [List.mem_cons, ancestors, ih, List.suffix_cons_iff]

end SelectorPath.Core
