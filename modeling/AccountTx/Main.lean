import AccountTx.Command.Run
import Std.Time.DateTime.Timestamp

/-!
The program itself: it reads the clock, the environment and the files of a request, and prints the
answer or the report of a failure.
-/

namespace AccountTx.Command

def readFile (path : String) : IO (Except FileError Bytes) := do
  try
    return .ok (← IO.FS.readBinFile path).toList
  catch
    | .noFileOrDirectory _ _ _ => return .error .notFound
    | .inappropriateType _ 21 _ => return .error .isADirectory
    | .inappropriateType _ _ _ => return .error .notADirectory
    | .permissionDenied _ _ _ => return .error (.other "Permission denied (os error 13)")
    | .invalidArgument _ (-36) _ => return .error .nameTooLong
    | e => return .error (.other (toString e))

def readFiles (paths : List String) : IO (String → Except FileError Bytes) := do
  let files ← paths.mapM fun path => do return (path, ← readFile path)
  return fun path => (files.lookup path).getD (.error .notFound)

def readEnvironment : IO (String → Option String) := do
  let values ← Setting.environmentNames.mapM fun name => do return (name, ← IO.getEnv name)
  return fun name => (values.lookup name).join

def answer (request : Request) : IO UInt32 := do
  let now ← Std.Time.Timestamp.now
  let file ← readFiles request.paths
  match run ⟨now.toSecondsSinceUnixEpoch.val, file⟩ request with
  | .ok a =>
      IO.println a.text
      return 0
  | .error f =>
      f.report.forM fun line => IO.eprintln line
      return 1

end AccountTx.Command

open AccountTx.Command

def main (arguments : List String) : IO UInt32 := do
  match Request.ofArguments (← readEnvironment) arguments with
  | .ok request => answer request
  | .error (.version command) =>
      IO.println (versionLine command)
      return 0
  | .error .usage =>
      IO.eprintln "error: the arguments are not those of a command"
      return 2
