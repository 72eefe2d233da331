import SelectorPath.Custom.NameUse
import SelectorPath.Engine.Basic
import SelectorPath.Literal
import SelectorPath.Pattern.Parser

/-!
# The standard engine

The engine that the program runs with. It never gives up a search. Quoted
literals, placeholders and plain names are looked for directly, and a pattern
whose text writes a choice of plain names is recognised as one. Any other text
is read as a pattern of the dialect in `SelectorPath.Pattern`, which leaves out
properties of characters, free spacing, comments and resetting the start of a
match.
-/

namespace SelectorPath

/-- What may stand behind a name: an argument, which is a group of its own, or
anything but a character that would continue the name. -/
def argumentPattern : Text :=
  "(?:\\((?P<data>[^)]+)\\)|(?![\\w-]))"

namespace Standard

/-- A pattern that has been compiled. -/
structure Regex where
  source : Text
  groupNames : List (Option Text)
  occurrences : Text → List Occurrence

/-! ## Literals and placeholders -/

/-- Where a quoted literal stands, with its quote. -/
def findLiteral : Text.Finder Char := fun _ ahead =>
  match ahead with
  | [] => none
  | c :: rest =>
    if c = '"' ∨ c = '\'' then
      (Literal.closeLiteral c rest).map fun (_, left) => (c, left)
    else none

/-- The pattern of quoted literals. -/
def literal : Regex where
  source := "([\"'])(?:\\\\\\1|.)*?\\1"
  groupNames := [none, none]
  occurrences := Text.occurrences findLiteral fun quote => [some [quote]]

/-- The pattern of placeholders. -/
def placeholder : Regex where
  source := "__S(\\d+)__"
  groupNames := [none, none]
  occurrences := Text.occurrences (fun _ ahead => Literal.placeholder? ahead)
    fun digits => [some digits]

/-! ## Plain names -/

/-- Whether a character means something else in a pattern than itself. -/
def isMeta (c : Char) : Bool :=
  ("\\.+*?()|[]\x7b\x7d^$#" : Text).contains c

/-- The text of a pattern that matches the given text only. -/
def escape (t : Text) : Text :=
  t.flatMap fun c => if isMeta c then ['\\', c] else [c]

/-- Put a character in front of the first name. -/
def consName (c : Char) : List Text × Text → List Text × Text
  | (name :: names, left) => ((c :: name) :: names, left)
  | ([], left) => ([[c]], left)

/-- The names of a choice up to its closing parenthesis, and what follows it. -/
def readNames : Text → Option (List Text × Text)
  | [] => none
  | ')' :: rest => some ([[]], rest)
  | '|' :: rest => (readNames rest).map fun (names, left) => ([] :: names, left)
  | '\\' :: c :: rest =>
    if isMeta c then (readNames rest).map (consName c) else none
  | c :: rest => if isMeta c then none else (readNames rest).map (consName c)

/-- The names in the text of a pattern that is a choice of plain names. -/
def namesOf? (t : Text) : Option (List Text) := do
  let rest ← Text.after? ":(" t
  let (names, left) ← readNames rest
  if left = argumentPattern then some names else none

/-- The pattern of a choice of plain names. -/
def ofNames (source : Text) (names : List Text) : Regex where
  source
  groupNames := [none, none, some "data"]
  occurrences := Text.occurrences (findName names) NameUse.groups

/-! ## Any pattern -/

/-- A pattern of the dialect, compiled from its text. -/
def ofPattern (source : Text) (pattern : Pattern) : Regex where
  source
  groupNames := (List.range (pattern.groups + 1)).map fun index =>
    (pattern.names.find? fun (name, i) =>
      i == index && pattern.names.lookup name == some index).map (·.1)
  occurrences := Text.occurrences pattern.find fun m =>
    (List.range pattern.groups).map fun index => m.group? (index + 1)

/-- The compiled pattern of a text, or the wording of its fault. -/
def compile (t : Text) : Except Text Regex :=
  match namesOf? t with
  | some names => .ok (ofNames t names)
  | none =>
    ((Pattern.ofText t).map (ofPattern t)).mapError Pattern.Fault.message

end Standard

/-- The engine that the program runs with. -/
def Engine.standard : Engine where
  Regex := Standard.Regex
  compile := Standard.compile
  source := Standard.Regex.source
  groupNames := Standard.Regex.groupNames
  occurrences regex t := (regex.occurrences t).map .ok
  escape := Standard.escape
  literal := Standard.literal
  placeholder := Standard.placeholder

end SelectorPath
