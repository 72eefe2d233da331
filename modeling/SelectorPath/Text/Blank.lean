import SelectorPath.Text.Table

/-!
# Blank characters

Two notions of blank are in use. Between the parts of a selector only five ASCII
characters are blank (`isSelectorBlank`). Arguments, search texts and input
lines are trimmed of every character with the White_Space property (`isBlank`).
-/

namespace SelectorPath.Text

/-- The code points with the White_Space property. -/
def blankRanges : Ranges :=
  [(0x9, 0xD), (0x20, 0x20), (0x85, 0x85), (0xA0, 0xA0), (0x1680, 0x1680),
    (0x2000, 0x200A), (0x2028, 0x2029), (0x202F, 0x202F), (0x205F, 0x205F),
    (0x3000, 0x3000)]

/-- Whether a character is white space. -/
def isBlank (c : Char) : Bool :=
  blankRanges.has c

/-- Whether a character is blank between the parts of a selector. -/
def isSelectorBlank (c : Char) : Bool :=
  c == ' ' || c == '\t' || c == '\n' || c == '\r' || c == '\x0c'

/-- The text without white space at its ends. -/
def trim (t : Text) : Text :=
  trimBy isBlank t

/-- The maximal runs of characters that are not white space. -/
def words (t : Text) : List Text :=
  (splitBy isBlank t).filter fun w => !w.isEmpty

/-- The words of a text with one space between neighbours. -/
def collapse (t : Text) : Text :=
  join " " (words t)

/-- The text without the blanks of a selector at its front. -/
def skipBlank (t : Text) : Text :=
  t.dropWhile isSelectorBlank

theorem length_skipBlank_le (t : Text) : (skipBlank t).length ≤ t.length :=
  length_dropWhile_le _ t

end SelectorPath.Text
