import SelectorPath.Custom.Expansion
import SelectorPath.XPath.Location

/-!
# Compiling a selector

The whole way of a selector: custom pseudo-classes are expanded, the text is
read, short names are replaced, and the streams become a location path or a
predicate.
-/

namespace SelectorPath

/-- The streams of a selector. -/
def tokenStreams (registry : Registry) (selector : Text) :
    Except SelectorError (List Stream) := do
  let expanded ← registry.expand selector
  let streams ← (Selector.parse expanded).mapError .malformed
  .ok (unaliasAll streams)

/-- The XPath expression for the elements that a selector matches. -/
def compile (registry : Registry) (selector : Text) :
    Except SelectorError Text := do
  let streams ← tokenStreams registry selector
  XPath.streamsPath streams

/-- The XPath predicate for the elements that a selector matches. -/
def subExpression (registry : Registry) (selector : Text) :
    Except SelectorError Text := do
  let expanded ← registry.expand selector
  XPath.subExpression expanded

end SelectorPath
