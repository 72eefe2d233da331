import SelectorPath.Text.Basic

/-!
# Faults of a pattern

Every way in which the text of a pattern can be wrong, as a cause; the wording
of each cause is in one function.
-/

namespace SelectorPath.Pattern

/-- Why a pattern cannot be read. -/
inductive Fault where
  | unclosedGroup
  | unopenedGroup
  | unknownGroup
  | badGroupName
  | tooDeep
  | unclosedClass
  | badClass
  | reversedRange
  | badEscape
  | nothingToRepeat
  | reversedCount
  | numberedReference
  | unknownReference
  | openWidth
deriving DecidableEq, Repr

/-- The wording of a fault. -/
def Fault.message : Fault → Text
  | unclosedGroup => "opening parenthesis without closing parenthesis"
  | unopenedGroup => "closing parenthesis without opening parenthesis"
  | unknownGroup => "unknown group flag"
  | badGroupName => "invalid group name"
  | tooDeep => "groups are nested too deeply"
  | unclosedClass => "invalid character class"
  | badClass => "invalid member of a character class"
  | reversedRange => "invalid character class range"
  | badEscape => "invalid escape"
  | nothingToRepeat => "target of repeat operator is invalid"
  | reversedCount => "invalid repetition count range"
  | numberedReference => "numbered backreference beside named groups"
  | unknownReference => "backreference to an unknown group"
  | openWidth => "look-behind assertion without constant size"

end SelectorPath.Pattern
