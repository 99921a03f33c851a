import RowFilter.Calendar.Readers
import RowFilter.CommandLine.Program

/-!
# RowFilter — the command line

The files that the arguments may name are read before the run, and its result is printed after it.
-/

open RowFilter.CommandLine

/-- The text of a file, if it can be read. -/
def readText (path : String) : IO (Option String) := do
  try
    return some (← IO.FS.readFile path)
  catch _ =>
    return none

/-- The paths that a run reads. -/
def pathsOf (args : List String) : List String :=
  match readArguments args with
  | .run o => o.data :: (o.lists.toList ++ o.config.toList)
  | _ => []

/-- Runs the program. -/
def main (args : List String) : IO UInt32 := do
  let files ← (pathsOf args).mapM fun path => do return (path, ← readText path)
  let result := run (fun path => (files.lookup path).join) args
  IO.print result.output
  for report in result.report do
    IO.eprintln report
  return result.code.toUInt32
