import SelectorPath.Text.Basic

/-!
# XPath expressions

The expressions that element tests are made of, and their concrete syntax.
-/

namespace SelectorPath.XPath

/-- An operator between two expressions. -/
inductive Operator where
  | equal
  | unequal
  | atMost
  | atLeast
  | modulo
  | and
  | or
deriving DecidableEq, Repr

/-- An expression evaluated at an element. -/
inductive Expr where
  /-- The attribute of the given name. -/
  | attr (name : Text)
  /-- The child elements. -/
  | children
  | literal (quote : Char) (body : Text)
  | number (numeral : Text)
  /-- The name of the element. -/
  | elementName
  /-- The place of the element among those its step has reached. -/
  | position
  /-- The number of elements its step has reached. -/
  | last
  /-- The text of the element with its white space normalized. -/
  | ownText
  /-- The length of the text of the element. -/
  | ownLength
  | normalizeSpace (e : Expr)
  | stringLength (e : Expr)
  | not (e : Expr)
  | contains (e part : Expr)
  | startsWith (e part : Expr)
  /-- The part of a string from a place counted from one. -/
  | substring (e start : Expr)
  | concat (a b c : Expr)
  /-- A string with the characters of `source` replaced by those of `target`. -/
  | translate (e source target : Expr)
  | minus (l r : Expr)
  | binary (op : Operator) (l r : Expr)
  /-- An expression in parentheses. -/
  | group (e : Expr)
deriving DecidableEq, Repr

/-- The operator as it is written. -/
def Operator.symbol : Operator → Text
  | equal => "="
  | unequal => "!="
  | atMost => "<="
  | atLeast => ">="
  | modulo => "mod"
  | and => "and"
  | or => "or"

namespace Expr

/-- The expression in XPath syntax. Only a difference from a string length has
no blanks around its operator. -/
def render : Expr → Text
  | attr name => '@' :: name
  | children => "*"
  | literal quote body => quote :: body ++ [quote]
  | number numeral => numeral
  | elementName => "name()"
  | position => "position()"
  | last => "last()"
  | ownText => "normalize-space()"
  | ownLength => "string-length()"
  | normalizeSpace e => "normalize-space(" ++ e.render ++ ")"
  | stringLength e => "string-length(" ++ e.render ++ ")"
  | not e => "not(" ++ e.render ++ ")"
  | contains e part => "contains(" ++ e.render ++ ", " ++ part.render ++ ")"
  | startsWith e part =>
    "starts-with(" ++ e.render ++ ", " ++ part.render ++ ")"
  | substring e start => "substring(" ++ e.render ++ ", " ++ start.render ++ ")"
  | concat a b c =>
    "concat(" ++ a.render ++ ", " ++ b.render ++ ", " ++ c.render ++ ")"
  | translate e source target =>
    "translate(" ++ e.render ++ ", " ++ source.render ++ ", " ++
      target.render ++ ")"
  | minus (stringLength e) r => "string-length(" ++ e.render ++ ")-" ++ r.render
  | minus l r => l.render ++ " - " ++ r.render
  | binary op l r => l.render ++ " " ++ op.symbol ++ " " ++ r.render
  | group e => "(" ++ e.render ++ ")"

/-- A literal in single quotes. -/
def single (body : Text) : Expr :=
  literal '\'' body

/-- The comparison of the last characters of `e`, as many as `body` has, with
the literal `body`. -/
def endsWith (e : Expr) (quote : Char) (body : Text) : Expr :=
  binary .equal
    (substring e (minus (stringLength e)
      (number (Text.ofInt (Int.ofNat body.length - 1)))))
    (literal quote body)

end Expr

end SelectorPath.XPath
