import SelectorPath.Text.Word

/-!
# Predicates

A predicate is made of text fragments joined by `and` or `or`. Of several
fragments, those that hold a comparison or a connective of their own are put in
parentheses, and a repeated fragment is written once.
-/

namespace SelectorPath.XPath

/-- How fragments are joined. -/
inductive Connective where
  | and
  | or
deriving DecidableEq, Repr

/-- The connective as it is written. -/
def Connective.name : Connective → Text
  | and => "and"
  | or => "or"

/-- Whether a fragment needs parentheses beside others: it holds `=`, `<`, `>`
or one of the words `and` and `or`. -/
def needsParens (fragment : Text) : Bool :=
  fragment.any (fun c => c == '=' || c == '<' || c == '>')
    || (Text.wordRuns fragment).any fun w =>
      w.asciiLower == ("and" : Text) || w.asciiLower == ("or" : Text)

/-- The fragment in parentheses, if it needs them. -/
def guarded (fragment : Text) : Text :=
  if needsParens fragment then "(" ++ fragment ++ ")" else fragment

/-- The fragments joined to one; empty ones say nothing and are left out. -/
def flatten (op : Connective) (fragments : List Text) : Text :=
  let fragments := fragments.filter fun f => !f.isEmpty
  let fragments := if 1 < fragments.length then fragments.map guarded
    else fragments
  Text.join (" " ++ op.name ++ " ") fragments.eraseDups

end SelectorPath.XPath
