import SelectorPath.Text.Basic

/-!
# Quoted texts

A text as one double-quoted literal: a pair of matching quotes around it is
dropped first, and a double quote inside it is written as a character reference.
-/

namespace SelectorPath.Text

/-- The text without the pair of quotes `q` around it; a lone `q` is taken for
both of them. -/
def unquoteWith? (q : Char) (t : Text) : Option Text :=
  match t with
  | [] => none
  | c :: rest =>
    if c = q ∧ t.getLast? = some q then some rest.dropLast else none

/-- The text without a pair of matching quotes around it. -/
def unquote (t : Text) : Text :=
  ((unquoteWith? '\'' t).or (unquoteWith? '"' t)).getD t

/-- The text as one double-quoted literal. -/
def quoted (t : Text) : Text :=
  '"' :: (unquote t).flatMap (fun c => if c = '"' then "&quot;"
    else [c]) ++ ['"']

end SelectorPath.Text
