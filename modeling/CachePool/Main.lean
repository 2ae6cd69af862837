/-
# The program

The command line with its surroundings: it reads the files the arguments name,
runs the command against servers in memory, and prints the report.
-/
import CachePool.CommandLine.Run
import CachePool.Simulation.Network

namespace CachePool.CommandLine

/-- Reads a file. -/
def readFile (path : String) : IO (Except IoError String) := do
  try
    return .ok (← IO.FS.readFile path)
  catch error =>
    match error with
    | .noFileOrDirectory .. => return .error (.os 2 "No such file or directory")
    | other => return .error (.other (toString other))

/-- The servers the arguments name. -/
def namedServers (files : Files) (texts : List String) : List ServerAddress :=
  match Arguments.read files texts with
  | .ok (.command arguments) => (arguments.config.addresses).toOption.getD []
  | _ => []

end CachePool.CommandLine

open CachePool CachePool.CommandLine in
/-- Runs the command line. -/
def main (texts : List String) : IO UInt32 := do
  let mut contents : List (String × Except IoError String) := []
  for path in Arguments.paths texts do
    contents := (path, ← readFile path) :: contents
  let known := contents
  let files : Files := fun path =>
    (known.lookup path).getD (.error (.os 2 "No such file or directory"))
  let (report, _) := run (Simulation.World.serving (namedServers files texts)) files texts
  IO.print report.output
  IO.eprint report.errors
  return report.exitCode.toUInt32
