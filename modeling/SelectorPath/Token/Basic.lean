import SelectorPath.PseudoClass

/-!
# Tokens

A selector is a stream of tokens: simple selectors with combinators between
compounds, so that `a > .b` is a tag, a child combinator and an attribute test.
A token carries optional fields, and every combination of them is a token; the
parser makes only the sensible ones.

The argument of a pseudo-class is either a text or a list of streams, which
makes tokens a nested type. Functions on tokens recurse together over tokens,
streams and lists of streams.
-/

namespace SelectorPath

/-! ## Parts of a token -/

/-- What stands between two compounds. -/
inductive Combinator where
  | descendant
  | child
  | sibling
  | adjacent
deriving DecidableEq, Repr

/-- What a token is. -/
inductive Kind where
  | tag
  | universal
  | attr
  | pseudoClass
  | pseudoElement
  | combinator (c : Combinator)
  | root
deriving DecidableEq, Repr

/-- How an attribute's value is tested. -/
inductive AttributeTest where
  | present
  | hasWord
  | contains
  | startsWith
  | endsWith
  | hyphenated
  | differs
  | equals
deriving DecidableEq, Repr

/-- What a pseudo-class or pseudo-element holds in parentheses. -/
inductive Argument (τ : Type) where
  | text (t : Text)
  | selectors (streams : List (List τ))
deriving Repr

/-- A simple selector or a combinator. -/
structure Token where
  kind : Kind
  name : Option Text := none
  value : Option Text := none
  test : Option AttributeTest := none
  argument : Option (Argument Token) := none
deriving Repr

/-- One alternative of a selector list. -/
abbrev Stream := List Token

/-! ## Names -/

namespace Combinator

/-- Every combinator once. -/
def all : List Combinator :=
  [descendant, child, sibling, adjacent]

/-- The combinator's name in messages and token listings. -/
def name : Combinator → Text
  | descendant => "descendant"
  | child => "child"
  | sibling => "sibling"
  | adjacent => "adjacent"

/-- Whether the combinator leads to a following sibling. -/
def isSibling : Combinator → Bool
  | sibling | adjacent => true
  | descendant | child => false

end Combinator

namespace Kind

/-- Every kind once. -/
def all : List Kind :=
  [tag, universal, attr, pseudoClass, pseudoElement, root] ++
    Combinator.all.map combinator

/-- The kind's name in messages and token listings. -/
def name : Kind → Text
  | tag => "tag"
  | universal => "universal"
  | attr => "attribute"
  | pseudoClass => "pseudo"
  | pseudoElement => "pseudo-element"
  | combinator c => c.name
  | root => "root"

/-- The kind of the given name. -/
def ofName? (n : Text) : Option Kind :=
  all.find? fun k => k.name == n

/-- Every kind is found by its name. -/
theorem ofName?_name (k : Kind) : ofName? k.name = some k := by
  cases k with
  | combinator c => cases c <;> decide
  | _ => decide

/-- Whether the kind is a combinator. -/
def isCombinator : Kind → Bool
  | combinator _ => true
  | _ => false

/-- Whether the kind is a combinator leading to a following sibling. -/
def isSiblingAxis : Kind → Bool
  | combinator c => c.isSibling
  | _ => false

/-- Whether the kind is a combinator leading down the tree. -/
def isDownwardAxis : Kind → Bool
  | combinator c => !c.isSibling
  | _ => false

/-- Whether the kind is a node test. -/
def isNodeTest : Kind → Bool
  | tag | universal => true
  | _ => false

end Kind

namespace AttributeTest

/-- Every test once. -/
def all : List AttributeTest :=
  [present, hasWord, contains, startsWith, endsWith, hyphenated, differs,
    equals]

/-- The test's name in messages and token listings. -/
def name : AttributeTest → Text
  | present => "exists"
  | hasWord => "element"
  | contains => "any"
  | startsWith => "start"
  | endsWith => "end"
  | hyphenated => "hyphen"
  | differs => "not"
  | equals => "equals"

/-- The test of the given name. -/
def ofName? (n : Text) : Option AttributeTest :=
  all.find? fun t => t.name == n

/-- Every attribute test is found by its name. -/
theorem ofName?_name (t : AttributeTest) : ofName? t.name = some t := by
  cases t <;> decide

end AttributeTest

/-! ## Tokens of the usual shapes -/

namespace Token

/-- A type selector. -/
def tag (name : Text) : Token :=
  { kind := .tag, name := some name }

/-- The selector `*`. -/
def universal : Token :=
  { kind := .universal }

/-- A test of an attribute. -/
def attr (name : Text) (test : AttributeTest) (value : Option Text) : Token :=
  { kind := .attr, name := some name, value := value, test := some test }

/-- A pseudo-class. -/
def pseudoClass (name : Text) (argument : Option (Argument Token)) : Token :=
  { kind := .pseudoClass, name := some name, argument := argument }

/-- A pseudo-element. -/
def pseudoElement (name : Text) (argument : Option (Argument Token)) : Token :=
  { kind := .pseudoElement, name := some name, argument := argument }

/-- A combinator. -/
def combinator (c : Combinator) : Token :=
  { kind := .combinator c }

/-- The root element. -/
def root : Token :=
  { kind := .root }

/-! ## Questions about a token -/

/-- The name, empty where there is none. -/
def label (t : Token) : Text :=
  t.name.getD []

/-- The argument, where it is a text. -/
def argumentText? (t : Token) : Option Text :=
  match t.argument with
  | some (.text a) => some a
  | _ => none

/-- Whether the token is the pseudo-class of the given name. -/
def isPseudoClass (t : Token) (name : Text) : Bool :=
  t.kind == .pseudoClass && t.label == name

/-- The known pseudo-class that the token is. -/
def pseudo? (t : Token) : Option PseudoClass :=
  if t.kind = .pseudoClass then PseudoClass.ofName? t.label else none

end Token

end SelectorPath
