import SelectorPath.Text.Occurrence
import SelectorPath.Text.Word

/-!
# Uses of plain names

A plain name is used behind a colon. Behind it stands either an argument in
parentheses, which is not empty and holds no closing parenthesis, or anything
but a character that would continue the name.
-/

namespace SelectorPath

open SelectorPath.Text (Finder)

/-- Whether a character continues the name in front of it. -/
def continuesName (c : Char) : Bool :=
  Text.isWordChar c || c == '-'

/-- The argument behind a name, if there is one, and what is left; nothing where
the name goes on. -/
def argumentBehind? (ahead : Text) : Option (Option Text × Text) :=
  let bare := if ahead.head?.any continuesName then none else some (none, ahead)
  match ahead with
  | '(' :: rest =>
    match Text.cutAt? ')' rest with
    | some (argument, left) =>
      if argument.isEmpty then bare else some (some argument, left)
    | none => bare
  | _ => bare

/-- A use of a plain name. -/
structure NameUse where
  name : Text
  argument : Option Text
deriving DecidableEq, Repr

namespace NameUse

/-- The use as it is written. -/
def written (use : NameUse) : Text :=
  ':' :: use.name ++ match use.argument with
    | none => []
    | some argument => '(' :: argument ++ [')']

/-- The groups of a use: its name and its argument. -/
def groups (use : NameUse) : List (Option Text) :=
  [some use.name, use.argument]

end NameUse

/-- The use of the first of the names that fits behind a colon. -/
def useOfNames? (names : List Text) (ahead : Text) : Option (NameUse × Text) :=
  names.findSome? fun name => do
    let rest ← Text.after? name ahead
    let (argument, left) ← argumentBehind? rest
    some (⟨name, argument⟩, left)

/-- Where one of the names is used. -/
def findName (names : List Text) : Finder NameUse := fun _ ahead =>
  match ahead with
  | ':' :: rest => useOfNames? names rest
  | _ => none

end SelectorPath
