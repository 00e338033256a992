import HotLoop.Cli.Command
/-!
# HotLoop.Main

The executable: carries out the command its arguments name, reading the
configuration file a run asks for, and exits with the command's status. A
failed run is reported on the error stream as `Error: reason`.
-/

open HotLoop HotLoop.Cli

/-- The contents of a file, or why it cannot be read. -/
def readText (path : String) : IO (Except String String) := do
  try
    return .ok (← IO.FS.readFile path)
  catch e =>
    return .error (match e with
      | .noFileOrDirectory .. => "open " ++ path ++ ": no such file or directory"
      | .permissionDenied .. => "open " ++ path ++ ": permission denied"
      | e => "read " ++ path ++ ": " ++ toString e)

/-- Run the command line. -/
def main (args : List String) : IO UInt32 := do
  let cmd := Command.of args
  let file ← match cmd.configFile with
    | some p => do pure (some (p, ← readText p))
    | none => pure none
  let host : Host :=
    { read := fun p => match file with
        | some (q, r) => if p = q then r else .error ("open " ++ p ++ ": no such file or directory")
        | none => .error ("open " ++ p ++ ": no such file or directory"),
      buildDate := "2000-01-01" }
  let o := cmd.perform host
  IO.print o.stdout
  IO.eprint o.stderr
  if let (.run _, .error e) := (cmd, o.result) then IO.eprintln ("Error: " ++ e.message)
  (← IO.getStdout).flush
  return cmd.status o
