import SelectorPath.PseudoClass

/-!
# Warnings

A warning names the part of the library that gives it and is given once: the log
remembers what was given.
-/

namespace SelectorPath

/-- A remark that stops nothing. -/
structure Warning where
  component : Text
  message : Text
deriving DecidableEq, Repr

/-- The warning as it is shown. -/
def Warning.text (w : Warning) : Text :=
  "[" ++ w.component ++ "] " ++ w.message

/-- An attribute flag has no effect. -/
def Warning.ignoredFlag (flag : Char) : Warning :=
  ⟨"Selector", "attribute flag '" ++ [flag] ++ "' is ignored"⟩

/-- A custom pseudo-class has the name of a pseudo-class the compiler knows. -/
def Warning.shadowed (name : Text) : Warning :=
  ⟨"Pseudos", "custom pseudo ':" ++ name ++ "' shadows a built-in pseudo-class"⟩

/-- The warnings given so far, as shown. -/
structure WarningLog where
  shown : List Text := []
deriving Repr

namespace WarningLog

/-- Whether the warning is new, and the log with it. -/
def give (log : WarningLog) (w : Warning) : Bool × WarningLog :=
  if log.shown.contains w.text then (false, log)
  else (true, ⟨w.text :: log.shown⟩)

/-- The log after all the warnings. -/
def giveAll (log : WarningLog) (ws : List Warning) : WarningLog :=
  ws.foldl (fun log w => (log.give w).2) log

end WarningLog

end SelectorPath
