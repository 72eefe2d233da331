import SelectorPath.Custom.Registry
import SelectorPath.Engine.Standard

/-!
# Expansion

Custom pseudo-classes are replaced in the text of a selector before it is read.
Quoted literals are masked meanwhile. One pass replaces the plain names, then
each pattern makes a pass of its own, in registry order; what a pass has written
is not looked at again by the same pass.

Everything is told for an engine. Each stage looks for a pattern, so each stage
can fail as the engine does, also where the literals of an argument are put back
in the middle of a pass. The program expands with the standard engine.
-/

namespace SelectorPath

namespace Engine

variable (e : Engine)

/-! ## Masking -/

/-- The text with its literals masked, and the literals. -/
def capture (t : Text) : Except SelectorError (Text × List Text) :=
  e.replaceWith e.literal
    (fun table o => .ok (Literal.placeholder table.length, table ++ [o.text]))
    [] t

/-- The text with the placeholders of known literals replaced by them. Any other
placeholder stays. -/
def restore (table : List Text) (t : Text) : Except SelectorError Text :=
  if table.isEmpty then .ok t
  else e.replaceAll e.placeholder
    (fun o => .ok (((o.group? 1).bind (Literal.numbered? table)).getD o.text)) t

/-! ## Plain names -/

/-- The arguments of a function: all of the argument as one, or cut at its
commas where several are expected. -/
def argumentsOf (table : List Text) (arity : Nat) :
    Option Text → Except SelectorError (List Text)
  | none => .ok []
  | some argument =>
    if 1 < arity then
      (argument.splitBy (· == ',')).mapM fun piece =>
        e.restore table (Text.trim piece)
    else do
      let whole ← e.restore table argument
      .ok [whole]

/-- An argument with its literals put back. -/
def restoreArgument (table : List Text) :
    Option Text → Except SelectorError (Option Text)
  | none => .ok none
  | some argument => (e.restore table argument).map some

/-- What a use of a plain name is replaced by. -/
def expandName (registry : Registry) (table : List Text) (regex : e.Regex)
    (o : Occurrence) : Except SelectorError Text :=
  let argument := ((e.named? regex o "data").map Text.trim).filter fun a =>
    !a.isEmpty
  match registry.find? ((o.group? 1).getD []) with
  | some (.literal replacement) => .ok replacement
  | some (.function arity make) => (e.argumentsOf table arity argument).map make
  | some (.onMatch make) =>
    (e.restoreArgument table argument).map fun data => make data {}
  | none => .ok o.text

/-- The pattern of a choice of plain names. -/
def namesPattern (names : List Text) : Text :=
  ":(" ++ Text.join "|" (names.map e.escape) ++ ")" ++ argumentPattern

/-- Replace the uses of the plain names of a registry, if there are any. -/
def expandNames (registry : Registry) (table : List Text) (t : Text) :
    Except SelectorError Text :=
  if registry.names.isEmpty then .ok t
  else do
    let pattern := e.namesPattern registry.names
    let regex ← (e.compile pattern).mapError (.badPattern pattern)
    e.replaceAll regex (e.expandName registry table regex) t

end Engine

/-! ## Pattern keys -/

/-- The text between the slashes of a pattern key, and the flags behind them. -/
def cutPatternKey (key : Text) : Text × Text :=
  let body := key.drop 1
  -- The last slash ends the pattern, unless it is the first character of
  -- the key.
  let flags := (body.reverse.takeWhile (· != '/')).reverse
  if body.contains '/' then
    (body.take (body.length - flags.length - 1), '/' :: flags)
  else ([], body)

/-- Whether the text of a pattern key starts with a small letter and does not
end with an anchor. -/
def isPatternSource (source : Text) : Bool :=
  source.head?.any Char.isLower
    && (!("$" : Text).isSuffixOf source || ("\\$" : Text).isSuffixOf source)

/-- The pattern that the text of a key stands for: a colon, the text as a group,
and what may stand behind a name, its argument being the last group. -/
def patternText (ignoreCase : Bool) (source : Text) : Text :=
  (if ignoreCase then "(?i)" else "") ++ ":(" ++ source ++ ")" ++
    argumentPattern

/-- The captures of an occurrence: every group but the last, which holds the
argument. -/
def capturesOf (names : List (Option Text)) (o : Occurrence) : Captures where
  groups := (o.groups.drop 1).dropLast
  named := Entries.putAll <|
    (names.zip o.groups.dropLast).filterMap fun (name, group) => do
      some (← name, ← group)

namespace Engine

/-- A pattern key that is ready to be used. -/
structure Pass (e : Engine) where
  regex : e.Regex
  make : Option Text → Captures → Text

variable (e : Engine)

/-- Make a pattern key ready. Its text is looked at first, then its handler,
then the pattern. -/
def compileKey (key : Text) (handler : Handler) : Except SelectorError e.Pass :=
  let (source, flags) := cutPatternKey key
  if !isPatternSource source then .error (.badPatternKey key)
  else match handler with
    | .onMatch make =>
      let text := patternText (flags.contains 'i') source
      ((e.compile text).map (⟨·, make⟩)).mapError (.badPattern text)
    | _ => .error (.patternWithoutMatch key)

/-- The pattern keys of a registry, ready to be used; the first that is wrong is
reported. -/
def passes (registry : Registry) : Except SelectorError (List e.Pass) :=
  (registry.entries.filter fun (key, _) => isPatternKey key).mapM
    fun (key, handler) => e.compileKey key handler

/-- What an occurrence of a pattern is replaced by. -/
def expandMatch (pass : e.Pass) (table : List Text) (o : Occurrence) :
    Except SelectorError Text :=
  (e.restoreArgument table o.groups.getLast?.join).map fun data =>
    pass.make data (capturesOf (e.groupNames pass.regex) o)

/-- Replace the occurrences of a pattern. -/
def runPass (table : List Text) (t : Text) (pass : e.Pass) :
    Except SelectorError Text :=
  e.replaceAll pass.regex (e.expandMatch pass table) t

/-! ## Expansion -/

/-- The text of a selector with custom pseudo-classes replaced; without any it
stays as it is. -/
def expand (registry : Registry) (selector : Text) :
    Except SelectorError Text :=
  if registry.isEmpty then .ok selector
  else do
    let passes ← e.passes registry
    let (masked, table) ← e.capture selector
    let named ← e.expandNames registry table masked
    let expanded ← passes.foldlM (e.runPass table) named
    e.restore table expanded

end Engine

/-- The expansion of a selector in the program. -/
def Registry.expand (r : Registry) (selector : Text) :
    Except SelectorError Text :=
  Engine.standard.expand r selector

end SelectorPath
