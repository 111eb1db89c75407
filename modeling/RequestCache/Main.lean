/-
# The program

Runs the demonstration with the settings that `pipecache.json` in the working directory and the
environment give, and prints its log.
-/
import RequestCache.Demo

namespace RequestCache

/-- A variable as the system lists it: its name, an equals sign, and its value. -/
def readVariable? (entry : String) : Option (String × String) :=
  match entry.toList.dropWhile (· != '=') with
  | [] => none
  | _ :: value => some (String.ofList (entry.toList.takeWhile (· != '=')), String.ofList value)

/-- The variables of the environment; without the list of the system only those whose names are
known. -/
def readEnvironment : IO (List (String × String)) := do
  try
    let content ← IO.FS.readFile "/proc/self/environ"
    return (content.splitOn "\x00").filterMap readVariable?
  catch _ =>
    ["PIPECACHE__PROVIDER", "PIPECACHE__CONNECTION", "PIPECACHE__LOOKUP", "RUST_LOG"].filterMapM
      fun name => do return (← IO.getEnv name).map fun value => (name, value)

/-- The configuration file, if there is one.  A text that is no JSON configures nothing. -/
def readConfiguration : IO (Option Json.Value) := do
  try
    let content ← IO.FS.readFile "pipecache.json"
    return some ((Json.Value.parse? content).getD .null)
  catch _ => return none

/-- Prints what the demonstration tells, and ends with its exit code. -/
def printDemonstration : IO UInt32 := do
  let (code, lines) := Demo.report .epoch (← readConfiguration) (← readEnvironment)
  lines.forM fun line => IO.println line
  return code.toUInt32

end RequestCache

def main : IO UInt32 := RequestCache.printDemonstration
