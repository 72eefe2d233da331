import SelectorPath.Custom.Template
import SelectorPath.Json.Parser

/-!
# Definition files

Custom pseudo-classes can be defined in a JSON file: an object with an entry for
each key, which is either the replacement text or an object with a `template`
and, optionally, the `arity` of the pseudo-class. How the file is read is up to
a reader, of which the program has one.
-/

namespace SelectorPath

/-- An entry of a definition file. -/
inductive Definition where
  | literal (replacement : Text)
  | template (template : Template) (arity : Option Nat)
deriving Repr

/-- Why a definition file has no registry. -/
inductive DefinitionError where
  /-- The file is not a JSON object. -/
  | notAnObject
  /-- The first entry of the wrong shape. -/
  | badEntry (key : Text)
deriving DecidableEq, Repr

/-- The wording of an error. -/
def DefinitionError.message : DefinitionError → Text
  | notAnObject => "not a JSON object"
  | badEntry key => "invalid definition for '" ++ key ++ "'"

namespace Definition

/-- The arity that an object gives; `null` is as good as nothing. -/
def arity? (fields : List (Text × Json)) : Option (Option Nat) :=
  match Json.field? fields "arity" with
  | none | some .null => some none
  | some (.number (.natural n)) => some (some n)
  | some _ => none

/-- The definition that a value describes. -/
def ofJson? : Json → Option Definition
  | .string t => some (.literal t)
  | .object fields =>
    match Json.field? fields "template", arity? fields with
    | some (.string t), some arity => some (.template (Template.ofText t) arity)
    | _, _ => none
  | _ => none

/-- The handler of a definition under a key. -/
def handler (key : Text) : Definition → Handler
  | literal replacement => .literal replacement
  | template t arity => t.handler key arity

end Definition

/-- The registry with the definition that an entry describes. -/
def Registry.define (r : Registry) (entry : Text × Json) :
    Except DefinitionError Registry :=
  match Definition.ofJson? entry.2 with
  | some definition => .ok (r.insert entry.1 (definition.handler entry.1))
  | none => .error (.badEntry entry.1)

/-- The registry with the entries of an object, in their order. -/
def Registry.ofEntries (entries : List (Text × Json)) :
    Except DefinitionError Registry :=
  entries.foldlM Registry.define Registry.empty

/-! ## Readers -/

/-- A way to read JSON objects: the entries of the object in a text, in the
order of the map that the reader keeps them in, and nothing where there is no
object. -/
abbrev Json.Reader := Text → Option (List (Text × Json))

/-- The reader that the program runs with. -/
def Json.readObject : Json.Reader := fun contents =>
  match Json.ofText? contents with
  | some (.object fields) => some fields
  | _ => none

/-- The registry that a definition file describes to a reader. -/
def Registry.ofFileBy (read : Json.Reader) (contents : Text) :
    Except DefinitionError Registry :=
  match read contents with
  | some entries => Registry.ofEntries entries
  | none => .error .notAnObject

/-- The registry of a definition file in the program. -/
def Registry.ofFile (contents : Text) : Except DefinitionError Registry :=
  Registry.ofFileBy Json.readObject contents

end SelectorPath
