import SelectorPath.Pattern.Plan
import SelectorPath.Text.Occurrence

/-!
# Patterns

A pattern describes texts to look for. Its groups are counted from one in the
order of their opening parentheses; some of them have names.
-/

namespace SelectorPath

/-- A pattern with numbered groups, some of which have names. -/
structure Pattern where
  plan : Pattern.Plan
  /-- The number of groups, which are counted from one. -/
  groups : Nat
  /-- The names of groups; the first entry for a name counts. -/
  names : List (Text × Nat)

/-- What a pattern has matched: the place behind it, with its groups. -/
structure Pattern.Match where
  place : Pattern.Place

/-- The text of a group, if it took part in the match. -/
def Pattern.Match.group? (m : Match) (index : Nat) : Option Text :=
  m.place.group? index

/-- Where a pattern occurs. -/
def Pattern.find (pattern : Pattern) :
    Text.Finder Pattern.Match := fun behind ahead =>
  (pattern.plan.run { behind, ahead } some).map fun p => (⟨p⟩, p.ahead)

end SelectorPath
