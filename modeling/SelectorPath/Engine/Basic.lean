import SelectorPath.Error
import SelectorPath.Text.Occurrence

/-!
# Engines

Patterns are compiled and looked for by an engine, which the rest of the library
takes as it is given: what an engine accepts, what it finds and how it words its
errors is up to the engine. It can fail twice, when a pattern is compiled and,
at every occurrence, when it gives up the search.

Replacing the occurrences of a pattern goes from left to right. It fails where
the search is given up and where nothing can be written for an occurrence,
whichever comes first.
-/

namespace SelectorPath

/-- What compiles patterns and looks for them. -/
structure Engine where
  /-- A compiled pattern. -/
  Regex : Type
  /-- The compiled pattern of a text, or why there is none. -/
  compile : Text → Except Text Regex
  /-- The text of a compiled pattern. -/
  source : Regex → Text
  /-- The names of the groups of a compiled pattern, by number. -/
  groupNames : Regex → List (Option Text)
  /-- The occurrences of a compiled pattern from left to right. Where the search
  is given up, the reason stands in place of an occurrence. -/
  occurrences : Regex → Text → List (Except Text Occurrence)
  /-- The text of a pattern that matches the given text only. -/
  escape : Text → Text
  /-- The pattern of quoted literals, `(["'])(?:\\\1|.)*?\1`. -/
  literal : Regex
  /-- The pattern of placeholders, `__S(\d+)__`. -/
  placeholder : Regex

namespace Engine

variable (e : Engine)

/-- The text of the group with the given name. -/
def named? (regex : e.Regex) (o : Occurrence) (name : Text) : Option Text :=
  o.group? ((e.groupNames regex).idxOf (some name))

/-- The text behind its first `last` characters with the given occurrences
replaced. A state goes from one occurrence to the next. -/
def replaceFrom {σ : Type} (regex : e.Regex)
    (write : σ → Occurrence → Except SelectorError (Text × σ)) (t : Text) :
    (last : Nat) → σ → List (Except Text Occurrence) →
    Except SelectorError (Text × σ)
  | last, s, [] => .ok (t.drop last, s)
  | _, _, .error cause :: _ => .error (.badPattern (e.source regex) cause)
  | last, s, .ok o :: rest => do
    let (written, s) ← write s o
    let (left, s) ← replaceFrom regex write t o.stop s rest
    .ok ((t.drop last).take (o.start - last) ++ written ++ left, s)

/-- Replace every occurrence of a pattern, with a state. -/
def replaceWith {σ : Type} (regex : e.Regex)
    (write : σ → Occurrence → Except SelectorError (Text × σ)) (start : σ)
    (t : Text) : Except SelectorError (Text × σ) :=
  e.replaceFrom regex write t 0 start (e.occurrences regex t)

/-- Replace every occurrence of a pattern. -/
def replaceAll (regex : e.Regex)
    (write : Occurrence → Except SelectorError Text) (t : Text) :
    Except SelectorError Text :=
  (e.replaceWith regex (fun _ o => (write o).map (·, ())) () t).map (·.1)

end Engine

end SelectorPath
