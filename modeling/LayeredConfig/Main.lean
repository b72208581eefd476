/-
This file is the program: it looks at the outside until the run of a command can be trusted, runs
the command, and prints what it leaves behind.
-/

import LayeredConfig.CommandLine.Footprint
import LayeredConfig.CommandLine.Program

namespace LayeredConfig

/-- What stands at a path; a directory is known by the refusal to be read. -/
def probe (path : String) : IO (Option FileEntry) := do
  match ← (IO.FS.readBinFile path).toBaseIO with
  | .ok content => return some (.file content)
  | .error (.inappropriateType _ code _) =>
    return if code = 21 then some .directory else none
  | .error _ => return none

/-- Learns about the paths in the footprint that are not known yet, until all are. -/
partial def explore (invocation : Invocation) (known : List String) (world : World) :
    IO World := do
  let unknown := (invocation.footprint world).eraseDups.filter (!known.contains ·)
  if unknown.isEmpty then return world
  else
    let mut wider := world
    for path in unknown do
      if let some entry ← probe path then
        wider := wider.learn path entry
    explore invocation (known ++ unknown) wider

/-- The world before any file is known. -/
def emptyWorld : IO World := do
  let directory ← IO.currentDir.toBaseIO
  let workingDirectory := directory.toOption.map fun path => path.toString
  let home := (← IO.getEnv "HOME").getD "/"
  let environment ← World.variableNames.filterMapM fun name => do
    return (← IO.getEnv name).map fun value => (name, value)
  let start : World := ⟨FileSystem.empty, workingDirectory, home, environment⟩
  return match workingDirectory with
    | some path => start.learn path .directory
    | none => start

end LayeredConfig

open LayeredConfig in
def main (words : List String) : IO UInt32 := do
  let start ← emptyWorld
  let world ← match Invocation.read start words with
    | .ok invocation => explore invocation [] start
    | .error _ => pure start
  let ending := runProgram world words
  IO.print ending.printed.output
  IO.eprint ending.printed.errors
  return ending.exitCode.toUInt32
