import SelectorPath.Selector.Lexeme

/-!
# Cursors

A cursor stands in a text and reads the lexemes of a selector one at a time. It
keeps what it has read, so that it can step back and tell its offset.
-/

namespace SelectorPath.Selector

open SelectorPath.Text (isSelectorBlank)

/-- A place in a text. -/
structure Cursor where
  /-- What was read, nearest first. -/
  behind : Text
  ahead : Text
deriving Repr

namespace Cursor

/-- The cursor at the start of a text. -/
def ofText (t : Text) : Cursor :=
  ⟨[], t⟩

/-- The number of characters read. -/
def position (c : Cursor) : Nat :=
  c.behind.length

/-- Whether everything is read. -/
def atEnd (c : Cursor) : Bool :=
  c.ahead.isEmpty

/-- The character `n` places ahead. -/
def peekAt? (c : Cursor) (n : Nat) : Option Char :=
  c.ahead[n]?

/-- The character ahead. -/
def peek? (c : Cursor) : Option Char :=
  c.peekAt? 0

/-- The cursor moved forward so that `left` lies ahead. -/
def moveTo (c : Cursor) (left : Text) : Cursor :=
  ⟨(c.ahead.take (c.ahead.length - left.length)).reverse ++ c.behind, left⟩

/-- The character ahead, and the cursor behind it. -/
def next (c : Cursor) : Option Char × Cursor :=
  (c.peek?, c.moveTo c.ahead.tail)

/-- One step back. -/
def back (c : Cursor) : Cursor :=
  match c.behind with
  | [] => c
  | d :: behind => ⟨behind, d :: c.ahead⟩

/-- Whether there are blanks ahead, and the cursor behind them. -/
def skipBlank (c : Cursor) : Bool × Cursor :=
  (c.peek?.any isSelectorBlank, c.moveTo (Text.skipBlank c.ahead))

/-- Whether a name lies ahead. -/
def startsName (c : Cursor) : Bool :=
  Selector.startsName c.ahead

/-- The name ahead, and the cursor behind it. -/
def name (c : Cursor) : Text × Cursor :=
  let (name, left) := takeName c.ahead
  (name, c.moveTo left)

/-- The string ahead, its opening quote already read; a fault is reported at
that quote. -/
def string (c : Cursor) (quote : Char) : Except ParseError Text × Cursor :=
  let (read, left) := takeString quote c.ahead
  (read.mapError fun fault => ⟨c.position - 1, .string fault⟩, c.moveTo left)

/-- The argument ahead, its opening parenthesis already read; a fault is
reported at that parenthesis. -/
def argument (c : Cursor) : Except ParseError Text × Cursor :=
  let (read, left) := takeArgument c.ahead
  (read.mapError fun fault => ⟨c.position - 1, .argument fault⟩, c.moveTo left)

end Cursor

end SelectorPath.Selector
