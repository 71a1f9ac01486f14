import Switchboard.CommandLine

/-! The program. It looks up the files that its arguments name, runs, and prints:
results go to standard output, the trace and errors to standard error. -/

namespace Switchboard

/-- What a failed attempt to read a path says about it. -/
def readFailure : IO.Error → Except FileError Entry
  | .noFileOrDirectory _ _ _ => .error .notFound
  | .inappropriateType _ code text =>
    if code = 21 then .ok .directory
    else if code = 20 then .error .notDirectory
    else .error (.other code.toNat text)
  | .permissionDenied _ code _ => .error (.other code.toNat "Permission denied")
  | e => .error (.other 0 (toString e))

def lookUp (path : String) : IO (String × Except FileError Entry) := do
  try
    let bytes ← IO.FS.readBinFile path
    return (path, .ok (.file bytes))
  catch e =>
    return (path, readFailure e)

/-- Looks the paths up once; no other path leads anywhere. -/
def snapshot (paths : List String) : IO Files := do
  let found ← paths.mapM lookUp
  return fun path => (Entries.get? path found).getD (.error .notFound)

end Switchboard

open Switchboard in
def main (args : List String) : IO UInt32 := do
  let files ← snapshot (CommandLine.paths args)
  let ending := CommandLine.run files args
  let err ← IO.getStderr
  match ending with
  | .done out trace =>
    if let some t := trace then err.putStrLn t.toJson.pretty
    IO.print out
  | .failed e => err.putStrLn ("Error: " ++ e.message)
  | .misused => err.putStr CommandLine.misuseText
  return ending.code.toUInt32
