import SelectorPath.Selector.Parser

/-!
# Ignored flags

An attribute test may carry a flag for letter case in front of its closing
bracket, as in `[a=b i]`. It has no effect, and the flags that reading a
selector list comes across are collected for warnings, also where reading fails
further on.
-/

namespace SelectorPath.Selector

open SelectorPath.Text (skipBlank)

/-- The flags met while `parseFrom` reads the same text. -/
def flagsFrom (ending : Ending) : Text → List Char
  | [] => []
  | c :: rest =>
    (if c = '[' then (attributeFlag? rest).toList else []) ++
      match _h : readItem c rest with
      | .error _ => []
      | .ok (.blank, left) => flagsFrom ending left
      | .ok (.comma, left) =>
        if ending.endProblem?.isNone then flagsFrom .nothing left else []
      | .ok (.combinator k _, left) =>
        if (ending.combinatorProblem? k).isNone then
          flagsFrom (.combinator k) left
        else []
      | .ok (.token _, left) => flagsFrom .simple left
      | .ok (.nested _ inner _, left) =>
        flagsFrom .nothing (skipBlank inner) ++
          match parseFrom .nothing (skipBlank inner) with
          | .ok _ => flagsFrom .simple left
          | .error _ => []
termination_by ahead => ahead.length
decreasing_by
  all_goals
    have hw := readItem_weight _h
    simp only [List.length_cons]
  · omega
  · omega
  · omega
  · omega
  · have hskip := Text.length_skipBlank_le inner
    simp only [Item.weight] at hw
    omega
  · omega

/-- The flags, small, met while a selector list is read. -/
def ignoredFlags (t : Text) : List Char :=
  flagsFrom .nothing (skipBlank t)

end SelectorPath.Selector
