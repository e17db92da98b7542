import EntityModel.CommandLine.Moment
import EntityModel.CommandLine.Run
import Std.Time.DateTime.Timestamp

/-!
# The program

Runs commands on the files, the streams and the clock of the system.
-/

namespace EntityModel.CommandLine

/-- The error of a file that the system reports. -/
def fileErrorOf : IO.Error → FileError
  | .noFileOrDirectory _ _ _ => .notFound
  | .alreadyExists _ _ _ => .alreadyExists
  | .inappropriateType _ 21 _ => .isDirectory
  | .inappropriateType _ _ _ => .notDirectory
  | .permissionDenied _ _ _ => .other "Permission denied (os error 13)"
  | .invalidArgument _ _ _ => .other "stream did not contain valid UTF-8"
  | e => .other (toString e)

/-- Does something with files and gives the error as a value. -/
def guarded {α : Type} (x : IO α) : IO (Except FileError α) := do
  try
    return .ok (← x)
  catch e => return .error (fileErrorOf e)

/-- Reads a text file. -/
def readTextFile (path : String) : IO (Except FileError String) := do
  match ← guarded (IO.FS.readBinFile path) with
  | .error e => return .error e
  | .ok bytes =>
    match String.fromUTF8? bytes with
    | some text => return .ok text
    | none => return .error (.other "stream did not contain valid UTF-8")

/-- Whether a path leads to something: if so, it can be opened or is refused for another reason. -/
def isPresentFile (path : String) : IO Bool := do
  match ← guarded (IO.FS.Handle.mk path .read) with
  | .error .notFound | .error .notDirectory => return false
  | _ => return true

instance : Machine IO where
  readText := readTextFile
  writeText path text := guarded (IO.FS.writeFile path text)
  makeDirectories path := guarded (IO.FS.createDirAll path)
  isPresent := isPresentFile
  print line := IO.println line
  warn line := IO.eprintln line
  now := do
    let t ← Std.Time.Timestamp.now
    return momentText t.toNanosecondsSinceUnixEpoch.val.toNat

end EntityModel.CommandLine

open EntityModel.CommandLine in
/-- Runs the program; the result is its exit status. -/
def main (arguments : List String) : IO UInt32 := do
  run (← IO.getEnv configVariable) arguments
