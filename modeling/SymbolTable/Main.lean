/-
The command line.
-/
import SymbolTable.CommandLine.Execute

namespace SymbolTable.CommandLine

/-- Reads a file, telling apart the ways in which that fails. A path through a file cannot be opened,
and that error names the path; a directory is opened and then cannot be read. -/
def readConfig (path : String) : IO (Except ReadFailure String) := do
  try
    return .ok (← IO.FS.readFile path)
  catch e =>
    return .error (match e with
      | .noFileOrDirectory .. => .notFound
      | .permissionDenied .. => .permissionDenied
      | .inappropriateType (some _) .. => .notADirectory
      | .inappropriateType none .. => .isADirectory
      | .invalidArgument .. => .nameTooLong
      | _ => .notText)

end SymbolTable.CommandLine

open SymbolTable.CommandLine in
def main (args : List String) : IO UInt32 := do
  let outcome ← match parse args with
    | .error halt => pure halt.outcome
    | .ok i => do
      let config ← i.config.mapM readConfig
      pure (i.execute config)
  IO.print outcome.stdout
  IO.eprint outcome.stderr
  return outcome.exit.toUInt32
