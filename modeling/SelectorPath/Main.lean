import SelectorPath.CommandLine

/-!
# The program

Reads the definition file and the input where the arguments ask for them, and
prints what the command line answers.
-/

namespace SelectorPath.CommandLine

/-- The contents of a file, if it can be read. -/
def contents? (path : Text) : IO (Option Text) := do
  try
    let contents ← IO.FS.readFile (String.ofList path)
    return some contents.toList
  catch _ => return none

/-- What is left of a stream. -/
partial def remainder (stream : IO.FS.Stream) : IO Text := do
  let line ← stream.getLine
  if line.isEmpty then return []
  else return line.toList ++ (← remainder stream)

/-- The part of the world that a request looks at. -/
def worldFor (request : Request) : IO World := do
  let contents ← match request.definitions with
    | some path => contents? path
    | none => pure none
  let input ←
    if request.selectors.isEmpty then remainder (← IO.getStdin) else pure []
  return { file? := fun _ => contents, input }

end SelectorPath.CommandLine

open SelectorPath in
def main (arguments : List String) : IO UInt32 := do
  let arguments := arguments.map String.toList
  let world ← match CommandLine.request? arguments with
    | some request => CommandLine.worldFor request
    | none => pure { file? := fun _ => none, input := [] }
  let outcome := CommandLine.run world arguments
  (← IO.getStdout).putStr (String.ofList outcome.output)
  (← IO.getStderr).putStr (String.ofList outcome.errors)
  return outcome.exit.toUInt32
