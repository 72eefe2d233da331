import SelectorPath.Text.CaseMapping
import SelectorPath.Token.Basic

/-!
# Traits of a token

Token listings name what holds of each token: its kind, its kind together with
its name, and the families its kind belongs to.
-/

namespace SelectorPath

/-- A hyphenated name with every part capitalised and the hyphens left out. -/
def Text.camelCase (t : Text) : Text :=
  ((t.splitBy (· == '-')).map titleCase).flatten

/-- The names of everything that holds of a token. -/
def Token.traits (t : Token) : List Text :=
  let kind : Text := "is" ++ t.kind.name.camelCase
  let named := t.name.toList.map fun n => kind ++ n.camelCase
  let families : List (Bool × Text) :=
    [(t.kind.isSiblingAxis, "isSiblingAxis"),
    (t.kind.isDownwardAxis, "isNonSiblingAxis"),
      (t.kind.isCombinator, "isAxis"), (t.kind.isNodeTest, "isTagOrUniversal")]
  kind :: named ++ (families.filter (·.1)).map (·.2)

end SelectorPath
