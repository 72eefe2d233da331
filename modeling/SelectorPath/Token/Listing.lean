import SelectorPath.Json.Basic
import SelectorPath.Token.Context
import SelectorPath.Token.Trait

/-!
# Token listings

Tokens as JSON values: the fields a token has, then its type context and its
traits.
-/

namespace SelectorPath

/-- A field with a text, where there is one. -/
def Json.textField (name : Text) (value : Option Text) : List (Text × Json) :=
  value.toList.map fun v => (name, .string v)

namespace Token

open Json (textField)

mutual

/-- The fields of a token. -/
def fields : Token → List (Text × Json)
  | ⟨kind, name, value, test, argument⟩ =>
    textField "type" kind.name ++ textField "name" name ++
      textField "value" value ++
      textField "action" (test.map AttributeTest.name) ++
      argumentFields argument

/-- The field of an argument, where there is one. -/
def argumentFields : Option (Argument Token) → List (Text × Json)
  | none => []
  | some argument => [("data", argumentJson argument)]

/-- An argument as a value. -/
def argumentJson : Argument Token → Json
  | .text t => .string t
  | .selectors streams => .array (streamsJson streams)

/-- Streams as values. -/
def streamsJson : List (List Token) → List Json
  | [] => []
  | stream :: streams => .array (streamJson stream) :: streamsJson streams

/-- The tokens of a stream as values. -/
def streamJson : List Token → List Json
  | [] => []
  | token :: tokens => .object token.fields :: streamJson tokens

end

end Token

/-- A token with its type context and its traits. -/
def Placed.toJson (p : Placed) : Json :=
  let traits : List (Text × Json) :=
    [("flags", .array (p.token.traits.map .string))]
  .object (p.token.fields ++ Json.textField "tag_context" p.context ++ traits)

end SelectorPath
