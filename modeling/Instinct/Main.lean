import Instinct.CommandLine.Request

/-! # The command line

Reads the files that a request names, prints its answer and ends with zero, or reports why there is
none: with two for a command line that makes no sense, with one for anything else. -/

open Instinct.CommandLine

/-- The contents of the files that can be read. -/
def readFiles (paths : List String) : IO (List (String × String)) :=
  paths.filterMapM fun (path : String) => do
    try return some (path, ← IO.FS.readFile path)
    catch _ => return none

/-- Answer one command line. -/
def main (args : List String) : IO UInt32 := do
  match Request.ofArgs? args with
  | none =>
    IO.eprint overview
    return 2
  | some request =>
    let files ← readFiles request.paths
    match request.answer fun path => (files.find? (·.1 = path)).map (·.2) with
    | .ok text =>
      IO.print text
      return 0
    | .error refusal =>
      IO.eprint refusal.text
      return 1
