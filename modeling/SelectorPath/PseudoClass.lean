import SelectorPath.Text.Basic

/-!
# Pseudo-classes

The pseudo-classes with a meaning in XPath, their names, and the short names
that stand for some of them.

## Main results

* `PseudoClass.ofName?_name`: a pseudo-class is found under its own name.
-/

namespace SelectorPath

/-- How the text of a node is compared with a given text. -/
inductive TextRelation where
  | equals
  | contains
  | startsWith
  | endsWith
deriving DecidableEq, Repr

/-- A pseudo-class that the compiler knows. -/
inductive PseudoClass where
  | root
  | comment
  | not
  | any
  | empty
  | childless
  | firstChild
  | firstOfType
  | lastChild
  | lastOfType
  | onlyChild
  | nthChild
  | nthOfType
  | text (relation : TextRelation) (caseSensitive : Bool)
deriving DecidableEq, Repr

namespace PseudoClass

/-- Every pseudo-class once. -/
def all : List PseudoClass :=
  [root, comment, not, any, empty, childless, firstChild, firstOfType,
    lastChild, lastOfType, onlyChild, nthChild, nthOfType, text .equals false,
    text .equals true, text .contains false, text .contains true,
    text .startsWith false, text .startsWith true, text .endsWith false,
    text .endsWith true]

/-- The name written after the colon. -/
def name : PseudoClass → Text
  | root => "root"
  | comment => "comment"
  | not => "not"
  | any => "any"
  | empty => "empty"
  | childless => "childless"
  | firstChild => "first-child"
  | firstOfType => "first-of-type"
  | lastChild => "last-child"
  | lastOfType => "last-of-type"
  | onlyChild => "only-child"
  | nthChild => "nth-child"
  | nthOfType => "nth-of-type"
  | text .equals false => "text"
  | text .equals true => "text-case"
  | text .contains false => "text-contains"
  | text .contains true => "text-contains-case"
  | text .startsWith false => "text-start"
  | text .startsWith true => "text-start-case"
  | text .endsWith false => "text-end"
  | text .endsWith true => "text-end-case"

/-- The pseudo-class of the given name. -/
def ofName? (n : Text) : Option PseudoClass :=
  all.find? fun p => p.name == n

/-- Every pseudo-class is found by its name. -/
theorem ofName?_name (p : PseudoClass) : ofName? p.name = some p := by
  cases p with
  | text relation caseSensitive =>
    cases relation <;> cases caseSensitive <;> decide
  | _ => decide

/-- Whether the pseudo-class counts an element's place among all its
siblings. -/
def isChildPosition : PseudoClass → Bool
  | firstChild | lastChild | nthChild | onlyChild => true
  | _ => false

/-- Whether the pseudo-class looks at a node's text. -/
def isText : PseudoClass → Bool
  | text _ _ => true
  | _ => false

/-- Whether the pseudo-class tells capitals from small letters in a node's
text. -/
def isCaseSensitive : PseudoClass → Bool
  | text _ caseSensitive => caseSensitive
  | _ => false

/-- The pseudo-class that a short name stands for. -/
def ofAlias? (n : Text) : Option PseudoClass :=
  if n = "first" then some firstChild
  else if n = "last" then some lastChild
  else if n = "child" then some nthChild
  else if n = "contains" then some (text .contains false)
  else none

end PseudoClass

end SelectorPath
