import EarleyChart.CommandLine

/-!
Contract: the program, which reads files for the command line and prints its outcome.
-/

namespace EarleyChart.CommandLine

/-- Reads a file, or tells why it cannot be read. -/
def readFromDisk (path : String) : IO (Except String String) := do
  try
    return .ok (← IO.FS.readFile path)
  catch
    | .noFileOrDirectory .. => return .error "No such file or directory (os error 2)"
    | error => return .error (toString error)

end EarleyChart.CommandLine

def main (arguments : List String) : IO UInt32 := do
  let outcome ← EarleyChart.CommandLine.execute EarleyChart.CommandLine.readFromDisk arguments
  IO.print outcome.output
  IO.eprint outcome.errors
  return outcome.exitCode
