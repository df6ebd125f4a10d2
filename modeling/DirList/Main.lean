import DirList.CommandLine.Program
import DirList.FileSystem.Inventory

/-!
# The command

Lists the file system whose inventory stands on the standard input, one path on each line.
-/

namespace DirList

/-- What the command looks at: an inventory, with no names for owners and groups. -/
def readWorld : IO World := do
  let paths ← (← IO.getStdin).lines
  return ⟨.ofInventory paths.toList, ⟨0, 0⟩, {}, {}⟩

/-- What the command is started with, as an ordinary user. -/
def readEnvironment : IO Program.Environment := do
  return ⟨⟨← (← IO.getStdout).isTty, none⟩, ← IO.getEnv "COLUMNS", 1⟩

/-- The command: its exit code, after its text and its errors are written. -/
def command (arguments : List String) : IO UInt32 := do
  let environment ← readEnvironment
  let result ← match Program.readArguments environment arguments with
    | .error result => pure result
    | .ok _ => pure (Program.run .standard environment (← readWorld) arguments)
  IO.print result.output
  IO.eprint result.errors
  return result.ending.code.toUInt32

end DirList

def main (arguments : List String) : IO UInt32 :=
  DirList.command arguments
