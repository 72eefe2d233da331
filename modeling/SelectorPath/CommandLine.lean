import SelectorPath.Compiler
import SelectorPath.Custom.DefinitionFile
import SelectorPath.Json.Printer
import SelectorPath.Token.Listing

/-!
# Command line

The program compiles the selectors that are its arguments or, without any, the
lines of its input, and prints one result for each. What it does is a function
of its arguments, its input and the files it can read; nothing is read before
the arguments are known to be right.
-/

namespace SelectorPath.CommandLine

/-! ## Arguments -/

/-- What is printed for a selector. -/
inductive Mode where
  | path
  | predicate
  | expansion
  | tokens
deriving DecidableEq, Repr

/-- A switch, which may be given once. -/
inductive Switch where
  | subExpression
  | expand
  | tokens
  | verbose
deriving DecidableEq, Repr

/-- The arguments read so far. -/
structure Settings where
  selectors : List Text := []
  switches : List Switch := []
  definitions : Option Text := none
deriving DecidableEq, Repr

/-- The switch with a long name. -/
def switchOfName? (name : Text) : Option Switch :=
  if name = "sub-expression" then some .subExpression
  else if name = "expand" then some .expand
  else if name = "tokens" then some .tokens
  else if name = "verbose" then some .verbose
  else none

/-- The switch with a short name. -/
def switchOfLetter? (c : Char) : Option Switch :=
  if c = 's' then some .subExpression
  else if c = 'v' then some .verbose
  else none

namespace Settings

/-- Set a switch. -/
def turnOn? (s : Settings) (switch : Switch) : Option Settings :=
  if s.switches.contains switch then none
  else some { s with switches := switch :: s.switches }

/-- Name the definition file. -/
def define? (s : Settings) (file : Text) : Option Settings :=
  if s.definitions.isSome || file.isEmpty then none
  else some { s with definitions := some file }

/-- The mode, unless switches contradict each other. -/
def mode? (s : Settings) : Option Mode :=
  match s.switches.contains .subExpression, s.switches.contains .expand,
    s.switches.contains .tokens with
  | false, false, false => some .path
  | true, false, false => some .predicate
  | false, true, false => some .expansion
  | false, false, true => some .tokens
  | _, _, _ => none

end Settings

/-- Letters behind a hyphen: the settings, and whether a file name has to follow
as an argument of its own. -/
def readLetters (s : Settings) : Text → Option (Settings × Bool)
  | [] => some (s, false)
  | c :: rest =>
    if c = 'p' then
      if rest.isEmpty then some (s, true)
      else
        let file := if rest.head? == some '=' then rest.tail else rest
        (s.define? file).map (·, false)
    else do
      let switch ← switchOfLetter? c
      let s ← s.turnOn? switch
      readLetters s rest

/-- A long option behind its hyphens: the settings, and whether a file name has
to follow. -/
def readLong (s : Settings) (option : Text) : Option (Settings × Bool) :=
  match Text.cutAt? '=' option with
  | some (name, value) =>
    if name = "pseudos" then (s.define? value).map (·, false) else none
  | none =>
    if option = "pseudos" then some (s, true)
    else do
      let switch ← switchOfName? option
      let s ← s.turnOn? switch
      some (s, false)

/-- Whether an argument is an option. -/
def isOption : Text → Bool
  | '-' :: _ :: _ => true
  | _ => false

/-- Read the arguments; behind `--` every argument is a selector. -/
def readArguments (s : Settings) : List Text → Option Settings
  | [] => some s
  | argument :: rest =>
    if argument = "--" then some { s with selectors := s.selectors ++ rest }
    else if !isOption argument then
      readArguments { s with selectors := s.selectors ++ [argument] } rest
    else
      let read := match Text.after? "--" argument with
        | some long => readLong s long
        | none => readLetters s argument.tail
      match read with
      | none => none
      | some (s, false) => readArguments s rest
      | some (s, true) =>
        match rest with
        | [] => none
        | file :: rest =>
          if isOption file then none
          else match s.define? file with
            | none => none
            | some s => readArguments s rest

/-- What the arguments ask for. -/
structure Request where
  mode : Mode
  selectors : List Text
  definitions : Option Text
deriving DecidableEq, Repr

/-- The request that the arguments make, if they are right. -/
def request? (arguments : List Text) : Option Request := do
  let settings ← readArguments {} arguments
  let mode ← settings.mode?
  some ⟨mode, settings.selectors, settings.definitions⟩

/-! ## Results -/

/-- What a run of the program leaves behind. -/
structure Outcome where
  exit : Nat
  output : Text := []
  errors : Text := []
deriving DecidableEq, Repr

/-- What the program can read. -/
structure World where
  /-- The contents of a file, if it can be read. -/
  file? : Text → Option Text
  input : Text

/-- The tokens of a selector as a JSON text. A stream that lacks a type is
listed as far as it got. -/
def listing (registry : Registry) (selector : Text) :
    Except SelectorError Text := do
  let streams ← tokenStreams registry selector
  let dumped := streams.map fun stream =>
    Json.array ((place stream).tokens.map Placed.toJson)
  .ok (Json.object [("selector", .string selector),
    ("streams", .array dumped)]).render

/-- The result for one selector. -/
def result (mode : Mode) (registry : Registry) (selector : Text) :
    Except SelectorError Text :=
  match mode with
  | .path => compile registry selector
  | .predicate => subExpression registry selector
  | .expansion => registry.expand selector
  | .tokens => listing registry selector

/-- The line for a selector that has no result, its first word bold and red. -/
def errorLine (selector : Text) (error : SelectorError) : Text :=
  "\x1b[1m\x1b[31merror:\x1b[39m\x1b[0m " ++ selector ++ ": " ++
    error.message ++ "\n"

/-- Print the results of all selectors; one failure is enough for the exit
code. -/
def printAll (mode : Mode) (registry : Registry) : List Text → Outcome
  | [] => ⟨0, [], []⟩
  | selector :: rest =>
    let others := printAll mode registry rest
    match result mode registry selector with
    | .ok line => { others with output := line ++ "\n" ++ others.output }
    | .error e =>
      { others with exit := 1, errors := errorLine selector e ++ others.errors }

/-- The selectors in the lines of an input. -/
def inputSelectors (input : Text) : List Text :=
  ((input.splitBy (· == '\n')).map Text.trim).filter fun line => !line.isEmpty

/-- The registry of the definition file, or the complaint about it. -/
def loadRegistry (world : World) : Option Text → Except Text Registry
  | none => .ok Registry.empty
  | some file =>
    match world.file? file with
    | none => .error ("Error: reading pseudo file " ++ file ++ "\n")
    | some contents =>
      (Registry.ofFile contents).mapError fun _ =>
        "Error: parsing pseudo file " ++ file ++ "\n"

/-- The complaint about wrong arguments. -/
def usage : Text :=
  "error: wrong arguments\n\n"
    ++ "usage: [-s | --expand | --tokens] [-p FILE] [-v] [--] [SELECTOR]...\n"

/-- Do what is asked for. Without selectors among the arguments the input holds
them. -/
def answer (world : World) (request : Request) : Outcome :=
  match loadRegistry world request.definitions with
  | .error complaint => ⟨1, [], complaint⟩
  | .ok registry =>
    let selectors :=
      if request.selectors.isEmpty then inputSelectors world.input
      else request.selectors
    printAll request.mode registry selectors

/-- Run the program. -/
def run (world : World) (arguments : List Text) : Outcome :=
  match request? arguments with
  | none => ⟨2, [], usage⟩
  | some request => answer world request

end SelectorPath.CommandLine
