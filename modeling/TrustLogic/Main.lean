import TrustLogic.CommandLine.Run

/-!
# The command

Reads the files that the arguments name, runs, and prints the outcome. This is the only module that
meets the outside world.

* `contentOf` – what is found where a file is asked for.
* `main` – the command.
-/

namespace TrustLogic

/-- The content of a file that has been found. -/
def contentOfHandle (handle : IO.FS.Handle) : IO FileContent := do
  try return .bytes (← handle.readBinToEnd)
  catch e => return .unreadable (toString e)

/-- The content of a file. -/
def contentOf (path : String) : IO FileContent := do
  try contentOfHandle (← IO.FS.Handle.mk path .read)
  catch e => return .missing (toString e)

end TrustLogic

/-- Runs the command. -/
def main (args : List String) : IO UInt32 := do
  let paths := match TrustLogic.CommandLine.Invocation.ofArguments args with
    | .ok i => i.files
    | .error _ => []
  let contents ← paths.mapM fun path => do return (path, ← TrustLogic.contentOf path)
  let content (path : String) := (contents.lookup path).getD (.missing "")
  let outcome := TrustLogic.CommandLine.run content args
  IO.print outcome.output
  if let some line := outcome.report then
    IO.eprintln line
  return outcome.code.toUInt32
