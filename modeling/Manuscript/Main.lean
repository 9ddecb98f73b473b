import Manuscript.CommandLine.Run
import Manuscript.Disk

/-!
# The program

The command line runs on the disk, in the environment of the process.
-/

namespace Manuscript

/-- The environment variables that the command line knows, as far as they are set. -/
def CommandLine.Environment.ofProcess : IO CommandLine.Environment := do
  let names := Flag.list.filterMap (·.variableName?) ++ Parameter.list.map (·.variableName)
  let values ← names.filterMapM fun name => do
    return (← IO.getEnv (String.ofList name)).map fun value => (name, value.toList)
  return fun name => values.lookup name

end Manuscript

/-- Runs the command line, prints what it tells, and ends with its exit code. -/
def main (arguments : List String) : IO UInt32 := do
  let environment ← Manuscript.CommandLine.Environment.ofProcess
  let outcome ← Manuscript.CommandLine.run Manuscript.Disk.fileSystem environment
    (arguments.map String.toList)
  (← IO.getStdout).putStr (String.ofList outcome.stdout)
  (← IO.getStderr).putStr (String.ofList outcome.stderr)
  return outcome.exitCode.toUInt32
