import SelectorPath.Text.CaseFolding
import SelectorPath.Text.Word

/-!
# Places in a text

While a pattern is matched it stands at a place: between what lies behind it and
what lies ahead. A place also remembers where each group was last entered and
where it was last left; the text of a group lies between the two.
-/

namespace SelectorPath.Pattern

/-! ## Conditions -/

/-- A condition on a place that takes no character. -/
inductive Condition where
  | start
  | finish
  | lineStart
  | lineEnd
  /-- Nothing but newlines lies ahead. -/
  | lastLine
  /-- The place between a word character and another character, or an end of the
  text. -/
  | boundary
  | noBoundary
  | wordStart
  | wordEnd
deriving DecidableEq, Repr

/-- Whether a condition holds between what lies behind, nearest first, and what
lies ahead. -/
def Condition.holds (c : Condition) (behind ahead : Text) : Bool :=
  let inWord := behind.head?.any Text.isWordChar
  let beforeWord := ahead.head?.any Text.isWordChar
  match c with
  | start => behind.isEmpty
  | finish => ahead.isEmpty
  | lineStart => behind.head?.all (· == '\n')
  | lineEnd => ahead.head?.all (· == '\n')
  | lastLine => ahead.all (· == '\n')
  | boundary => inWord != beforeWord
  | noBoundary => inWord == beforeWord
  | wordStart => !inWord && beforeWord
  | wordEnd => inWord && !beforeWord

/-! ## Places -/

/-- A place in a text. -/
structure Place where
  /-- What lies behind, nearest first. -/
  behind : Text
  ahead : Text
  /-- What lay ahead where a group was entered, latest first. -/
  entered : List (Nat × Text) := []
  /-- What lay ahead where a group was left, latest first. -/
  left : List (Nat × Text) := []

namespace Place

/-- The place behind the first `n` characters ahead. -/
def advance (p : Place) (n : Nat) : Place :=
  { p with
    behind := (p.ahead.take n).reverse ++ p.behind
    ahead := p.ahead.drop n }

/-- The place in front of the last `n` characters behind, if there are so
many. -/
def back? (p : Place) (n : Nat) : Option Place :=
  if n ≤ p.behind.length then
    some { p with
      behind := p.behind.drop n
      ahead := (p.behind.take n).reverse ++ p.ahead }
  else none

/-- Enter a group. -/
def enter (p : Place) (index : Nat) : Place :=
  { p with entered := (index, p.ahead) :: p.entered }

/-- Leave a group. -/
def leave (p : Place) (index : Nat) : Place :=
  { p with left := (index, p.ahead) :: p.left }

/-- Forget groups. -/
def forget (p : Place) (groups : List Nat) : Place :=
  { p with
    entered := p.entered.filter fun (index, _) => !groups.contains index
    left := p.left.filter fun (index, _) => !groups.contains index }

/-- The same place with the groups of another. -/
def withGroupsOf (p q : Place) : Place :=
  { p with entered := q.entered, left := q.left }

/-- The text of a group, if it has been entered and left. -/
def group? (p : Place) (index : Nat) : Option Text := do
  let opening ← p.entered.lookup index
  let closing ← p.left.lookup index
  some (opening.take (opening.length - closing.length))

end Place

/-! ## References -/

/-- The number of bytes a text takes in UTF-8. -/
def byteSize : Text → Nat
  | [] => 0
  | c :: rest => c.utf8Size + byteSize rest

/-- The beginning of a text that takes exactly `n` bytes. -/
def takeBytes? : Nat → Text → Option Text
  | 0, _ => some []
  | _ + 1, [] => none
  | n + 1, c :: rest =>
    if c.utf8Size ≤ n + 1 then
      (takeBytes? (n + 1 - c.utf8Size) rest).map (c :: ·)
    else none
termination_by _ t => t.length

/-- Whether `part` occurs in a text. -/
def occursIn (part : Text) : Text → Bool
  | [] => part.isEmpty
  | c :: rest => part.isPrefixOf (c :: rest) || occursIn part rest

/-- Whether a text repeats `kept` without regard to letter case: letter by
letter if it is ASCII, otherwise if `kept` occurs in it but for letter case. -/
def repeatsFolded (kept taken : Text) : Bool :=
  if taken.all (·.toNat < 0x80) then
    taken.map Char.toLower == kept.map Char.toLower
  else occursIn (kept.map Text.foldChar) (taken.map Text.foldChar)

/-- The number of characters ahead that repeat `kept`. Without regard to letter
case they may differ from it, but they take as many bytes. -/
def repeated? (ignoreCase : Bool) (kept ahead : Text) : Option Nat :=
  if kept.isPrefixOf ahead then some kept.length
  else if ignoreCase then do
    let taken ← takeBytes? (byteSize kept) ahead
    if repeatsFolded kept taken then some taken.length else none
  else none

end SelectorPath.Pattern
