import SelectorPath.Token.Basic

/-!
# Type context

`div:first-child` and `div:nth-of-type(2)` depend on the element name in front
of them. A forward pass over a stream gives each token the name of the type
selector of its own compound, and refuses a `*-of-type` pseudo-class that has
none.
-/

namespace SelectorPath

/-- A token with the element name that its compound gives it. -/
structure Placed where
  token : Token
  context : Option Text := none
deriving Repr

/-- A stream after the forward pass: its tokens, and the name of the
pseudo-class the pass stopped at. -/
structure Placement where
  tokens : List Placed
  untyped? : Option Text
deriving Repr

namespace Placement

/-- Put a token in front. -/
def cons (p : Placed) (rest : Placement) : Placement :=
  { rest with tokens := p :: rest.tokens }

end Placement

/-- Whether the token is a pseudo-class that counts among elements of one
type. -/
def Token.needsType (t : Token) : Bool :=
  t.kind == .pseudoClass && ("-of-type" : Text).isSuffixOf t.label

/-- The forward pass, `current` being the element name seen in the compound so
far. From the token it stops at, no token has a context. -/
def placeFrom (current : Option Text) : Stream → Placement
  | [] => ⟨[], none⟩
  | token :: rest =>
    match token.kind with
    | .tag => .cons ⟨token, none⟩ (placeFrom token.name rest)
    | .combinator _ => .cons ⟨token, none⟩ (placeFrom none rest)
    | _ =>
      if token.needsType && current.isNone then
        ⟨(token :: rest).map fun t => ⟨t, none⟩, some token.label⟩
      else .cons ⟨token, current⟩ (placeFrom current rest)

/-- The forward pass over a whole stream. -/
def place (stream : Stream) : Placement :=
  placeFrom none stream

end SelectorPath
