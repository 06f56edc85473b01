import NodeProbe.CommandLine
import NodeProbe.Thread.TaskDirectory

/-!
# The program

Looks at the files that the command line asks for, and prints what it answers.
-/
namespace NodeProbe.CommandLine

def attempt {α : Type} (action : IO α) : IO (Option α) :=
  try return some (← action) catch _ => return none

def textOf (path : String) : IO (Option String) := attempt (IO.FS.readFile path)

def taskEntry (root name : String) : IO TaskEntry := do
  let path (file : String) : String := root ++ "/" ++ name ++ "/" ++ file
  return {
    name
    stat := ← textOf (path "stat")
    comm := ← textOf (path "comm")
    status := ← textOf (path "status")
    schedule := ← textOf (path "schedstat")
    hasSchedule := (← attempt (IO.FS.readBinFile (path "schedstat"))).isSome }

/-- The tasks in a directory; none when it cannot be listed. -/
def taskEntries (root : String) : IO (List TaskEntry) := do
  let entries? ← attempt do (← IO.FS.realPath root).readDir
  ((entries?.getD #[]).toList.map (·.fileName)).mapM (taskEntry root)

/-- Opens a log file for appending, after its directory if need be. -/
def openLog (file : LogFile) : IO Bool := do
  let append : IO Unit := discard (IO.FS.Handle.mk (file.directory ++ "/" ++ file.name) .append)
  if (← attempt append).isSome then return true
  return (← attempt (IO.FS.createDirAll file.directory *> append)).isSome

/-- The directory of the user's configurations. -/
def configRoot? : IO (Option String) := do
  let named? := (← IO.getEnv "XDG_CONFIG_HOME").filter (·.startsWith "/")
  let home? := (← IO.getEnv "HOME").map (· ++ "/.config")
  return named?.or home?

def machine : IO (Surroundings IO) := do
  return {
    fileText? := textOf
    threadsAt := fun root => return ThreadSource.ofTasks (← taskEntries root)
    openLog
    defaultPath := (← configRoot?).map (· ++ "/dev.hxyulin.stack-probe/probe.toml") }

end NodeProbe.CommandLine

def main (args : List String) : IO UInt32 := do
  let outcome ← NodeProbe.CommandLine.run (← NodeProbe.CommandLine.machine) args
  IO.print outcome.output
  IO.eprint outcome.complaint
  return outcome.code.toUInt32
