import Patchbay.Headless
import Patchbay.Settings.Reader

/-!
# The command line

The program takes the path of its settings as an optional argument, performs the headless run that
they describe, saves the graph if they say so, and ends with `Headless.exitCode`. Everything but
files and messages is done by `Patchbay.Headless`.
-/

namespace Patchbay.CommandLine

/-- Where the settings are if no argument says otherwise. -/
def defaultPath : String := "blueprint_runner.ron"

/-- The text of a file, or nothing if it cannot be read. -/
def readText (path : String) : IO (Option String) := do
  try
    return some (← IO.FS.readFile path)
  catch _ => return none

/-- The settings in a file; the standard ones if there is no such file. -/
def readSettings (path : String) : IO (Except SettingsError Settings) := do
  try
    return Settings.load (some (← IO.FS.readFile path))
  catch
    | .noFileOrDirectory .. => return Settings.loadOrStandard none
    | _ => return Settings.load none

/-- Writes a file; tells whether that was possible. -/
def writeText (path text : String) : IO Bool := do
  try
    IO.FS.writeFile path text
    return true
  catch _ => return false

/-- Performs the run that settings describe and saves the graph if they say so. -/
def perform (settings : Settings) : IO (Except HeadlessError HeadlessReport) := do
  let seed ← IO.rand 0 (Nat.pow 2 62)
  Headless.perform readText writeText settings (.countingFrom (seed * Nat.pow 2 60))

end Patchbay.CommandLine

/-- Runs the program. -/
def main (args : List String) : IO UInt32 := do
  let path := args.head?.getD Patchbay.CommandLine.defaultPath
  let result ← match ← Patchbay.CommandLine.readSettings path with
    | .error e => pure (.error (.settings e))
    | .ok settings => Patchbay.CommandLine.perform settings
  match result with
  | .error e => IO.eprintln ("Run failed: " ++ e.message)
  | .ok _ => pure ()
  return (Patchbay.Headless.exitCode result).toUInt32
