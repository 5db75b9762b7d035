import SyncCascade.Console

/-!
# The command line

The arguments are the settings. Inquiries are read from the standard input, a line each, and their
reports are written to the standard output.
-/

namespace SyncCascade

def usage : String :=
  "usage: sync-cascade [--OPTION VALUE | --OPTION=VALUE]...\n" ++
  "reads inquiries as lines of JSON: now_ms, method, path, content_type, body"

/-- Why the service cannot run with the settings. -/
def Settings.obstacle? (s : Settings) : Option String :=
  if s.databaseUrl.isSome || s.redisUrl.isSome then
    some "everything is kept in memory: leave out --database-url and --redis-url"
  else none

partial def converse (input output : IO.FS.Stream) (c : Console) : IO Unit := do
  let line ← input.getLine
  if line.isEmpty then pure ()
  else
    let (report, next) := c.report line
    output.putStrLn report.text
    output.flush
    converse input output next

end SyncCascade

open SyncCascade in
def main (arguments : List String) : IO UInt32 := do
  match Settings.parse arguments with
  | .error .help =>
    IO.println usage
    pure 0
  | .error .invalid =>
    IO.eprintln usage
    pure 2
  | .ok settings =>
    match settings.obstacle? with
    | some why =>
      IO.eprintln why
      pure 1
    | none =>
      converse (← IO.getStdin) (← IO.getStdout) (Console.ofSettings settings)
      pure 0
