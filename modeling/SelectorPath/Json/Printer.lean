import SelectorPath.Json.Basic

/-!
# Writing JSON

Values are written over several lines, indented by two blanks a level. In
strings only quotes, backslashes and control characters are escaped.
-/

namespace SelectorPath.Json

/-- A character inside a string. -/
def escape (c : Char) : Text :=
  if c = '"' then "\\\""
  else if c = '\\' then "\\\\"
  else if c = '\n' then "\\n"
  else if c = '\r' then "\\r"
  else if c = '\t' then "\\t"
  else if c = '\x08' then "\\b"
  else if c = '\x0c' then "\\f"
  else if c.toNat < 0x20 then
    "\\u00" ++ [Nat.digitChar (c.toNat / 16), Nat.digitChar (c.toNat % 16)]
  else [c]

/-- A string in quotes. -/
def quote (t : Text) : Text :=
  '"' :: t.flatMap escape ++ ['"']

/-- A new line at a level. -/
def newline (level : Nat) : Text :=
  '\n' :: List.replicate (2 * level) ' '

mutual

/-- A value that starts at a level. -/
def renderAt (level : Nat) : Json → Text
  | null => "null"
  | bool true => "true"
  | bool false => "false"
  | number (.natural n) => Text.ofNat n
  | number (.other numeral) => numeral
  | string t => quote t
  | array [] => "[]"
  | array (item :: items) =>
    "[" ++ newline (level + 1) ++ renderAt (level + 1) item ++
      renderItems (level + 1) items ++ newline level ++ "]"
  | object [] => "\x7b\x7d"
  | object (field :: fields) =>
    "\x7b" ++ newline (level + 1) ++ renderField (level + 1) field
      ++ renderFields (level + 1) fields ++ newline level ++ "\x7d"

/-- The items behind the first. -/
def renderItems (level : Nat) : List Json → Text
  | [] => []
  | item :: items =>
    "," ++ newline level ++ renderAt level item ++ renderItems level items

/-- The fields behind the first. -/
def renderFields (level : Nat) : List (Text × Json) → Text
  | [] => []
  | field :: fields =>
    "," ++ newline level ++ renderField level field ++ renderFields level fields

/-- A field. -/
def renderField (level : Nat) : Text × Json → Text
  | (name, value) => quote name ++ ": " ++ renderAt level value

end

/-- The value as a text of several lines. -/
def render (value : Json) : Text :=
  renderAt 0 value

end SelectorPath.Json
