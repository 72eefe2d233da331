import SelectorPath.Text.Basic

/-!
# Occurrences

Occurrences are found from left to right and do not overlap. An empty
occurrence stands in front of a character, but not right behind another
occurrence.
-/

namespace SelectorPath

/-- An occurrence of a pattern in a text. -/
structure Occurrence where
  /-- The number of characters in front of it. -/
  start : Nat
  /-- The number of characters up to its end. -/
  stop : Nat
  /-- The texts of its groups by number. The first is the whole occurrence; a
  group that took no part has no text. -/
  groups : List (Option Text)
deriving DecidableEq, Repr

namespace Occurrence

/-- The text of a group. -/
def group? (o : Occurrence) (index : Nat) : Option Text :=
  (o.groups[index]?).join

/-- The text of the whole occurrence. -/
def text (o : Occurrence) : Text :=
  (o.group? 0).getD []

end Occurrence

namespace Text

/-- A way to find an occurrence: given what lies behind a place, nearest first,
and what lies ahead, it tells whether one starts there, and what is left behind
it. -/
abbrev Finder (α : Type) := (behind : Text) → (ahead : Text) → Option (α × Text)

/-- The occurrences that lie ahead; `ended` tells whether one has just ended,
and `groups` makes the groups of one from what was found. -/
def occurrencesFrom {α : Type} (find : Finder α)
    (groups : α → List (Option Text)) (behind : Text) (ended : Bool)
    (ahead : Text) : List Occurrence :=
  match find behind ahead with
  | some (found, left) =>
    if left.length < ahead.length then
      let taken := ahead.take (ahead.length - left.length)
      ⟨behind.length, behind.length + taken.length,
        some taken :: groups found⟩ ::
        occurrencesFrom find groups (taken.reverse ++ behind) true left
    else
      (if ended then []
        else [⟨behind.length, behind.length, some [] :: groups found⟩]) ++
        match ahead with
        | [] => []
        | c :: rest => occurrencesFrom find groups (c :: behind) false rest
  | none =>
    match ahead with
    | [] => []
    | c :: rest => occurrencesFrom find groups (c :: behind) false rest
termination_by ahead.length

/-- The occurrences in a text. -/
def occurrences {α : Type} (find : Finder α) (groups : α → List (Option Text))
    (t : Text) : List Occurrence :=
  occurrencesFrom find groups [] false t

end Text

end SelectorPath
