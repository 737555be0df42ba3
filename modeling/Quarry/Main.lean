import Quarry.Command.Run
import Quarry.Wire.Detached

/-!
# The command line

Reads the arguments and the environment, runs the command, and prints what it has to say. No driver
is attached here, so only commands that need no connection succeed.
-/

set_option autoImplicit false

namespace Quarry

/-- The environment variables that hold settings. -/
def settingNames : List String :=
  ["DB_URL", "DB_HOST", "DB_PORT", "DB_USER", "DB_PASSWORD", "DB_NAME", "DB_CONNECTION_LIMIT",
    "DB_QUEUE_LIMIT", "DB_WAIT_FOR_CONNECTIONS", "DB_ACQUIRE_TIMEOUT", "DB_RETRY_COUNT",
    "DB_RETRY_DELAY", "DB_IDLE_TIMEOUT", "DB_SWEEP_INTERVAL", "CASTED_BOOLEAN",
    "DB_DECIMAL_NUMBERS", "DB_PARSE_JSON", "DB_UTC_DATES", "DB_PRINT_QUERY"]

/-- The settings in the environment. -/
def readEnvironment : IO Settings.Environment := do
  let found ← settingNames.mapM fun name => do
    return (← IO.getEnv name).map fun value => (name, value)
  return found.filterMap id

/-- Print a line or a table. -/
def printOut : Printed → IO Unit
  | .line text => IO.println text
  | .table title columns rows => do
    if let some t := title then IO.println t
    IO.println (" | ".intercalate columns)
    for row in rows do
      IO.println (" | ".intercalate row)

/-- Run a command line; the result is the exit code. -/
def runCommandLine (args : List String) : IO UInt32 := do
  let env ← readEnvironment
  match CommandLine.read none false false args with
  | .error e =>
    IO.eprintln ("Error: " ++ e.message)
    return 2
  | .ok c =>
    let world : World Unit := { outside := (), log := { threshold := c.logRank } }
    let (outcome, after) := (c.run Wire.detached env).runOn world
    for r in after.log.records do
      IO.eprintln r.display
    match outcome with
    | .ok printed =>
      for p in printed do
        printOut p
      return 0
    | .error e =>
      IO.eprintln ("Error: " ++ e.message)
      return 1

end Quarry

/-- The program. -/
def main (args : List String) : IO UInt32 := Quarry.runCommandLine args
