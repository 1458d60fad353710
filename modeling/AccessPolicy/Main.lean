import AccessPolicy.CommandLine.Run
import Std.Time.DateTime.Timestamp

/-!
# The program

Runs the command line on the files and the clock of the machine.
-/

namespace AccessPolicy

def fileError : IO.Error → FileError
  | .noFileOrDirectory _ _ _ => .missing
  | .inappropriateType _ _ _ => .isDirectory
  | e => .other (toString e)

def readTextFile (path : String) : IO (Except FileError String) := do
  try
    match String.fromUTF8? (← IO.FS.readBinFile path) with
    | some text => return .ok text
    | none => return .error .notText
  catch e => return .error (fileError e)

def machineTime : IO Moment := do
  return .ofEpoch (← Std.Time.Timestamp.now).toNanosecondsSinceUnixEpoch.val

end AccessPolicy

open AccessPolicy in
/-- Run the command that the arguments name. -/
def main (args : List String) : IO UInt32 := do
  let outcome ← CommandLine.run ⟨readTextFile, machineTime⟩ args
  (← IO.getStdout).putStr outcome.stdout
  (← IO.getStderr).putStr outcome.stderr
  return outcome.code.toUInt32
