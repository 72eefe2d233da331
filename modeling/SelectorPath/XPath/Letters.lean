import SelectorPath.Text.CaseMapping

/-!
# Letters to fold

XPath 1.0 has no case mapping, only `translate`, which replaces characters one
by one. To compare without regard to letter case, the letters of the text that
is looked for are listed in both forms.
-/

namespace SelectorPath.XPath

/-- Letters in their two forms. -/
structure Letters where
  lower : Text
  upper : Text
deriving DecidableEq, Repr

/-- Whether a small letter is listed: the letters of ASCII, of Latin-1, of
Greek, and three more. -/
def isFoldable (c : Char) : Bool :=
  ('a' ≤ c && c ≤ 'z') || c == 'š' || c == 'ž' || c == 'œ'
    || ('à' ≤ c && c ≤ 'ÿ') || ('ά' ≤ c && c ≤ 'ώ')

/-- The foldable letters of a text, each once, in order of first occurrence. -/
def Letters.ofText (t : Text) : Letters :=
  let lower := ((Text.lower t).filter isFoldable).eraseDups
  ⟨lower, Text.upper lower⟩

end SelectorPath.XPath
