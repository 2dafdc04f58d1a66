import HostParsing.Command.Run
/-!
# The command line

Reads the settings file and the files that the arguments name, runs the command on
them, prints what it answers and exits with its code.
-/

namespace HostParsing

/-- The system's number of an error, which may come with its sign turned. -/
def errorNumber (code : UInt32) : Nat :=
  if code.toNat < UInt32.size / 2 then code.toNat else (0 - code).toNat

/-- The problem that the system reports. -/
def problemOf (error : IO.Error) : Problem :=
  match error with
  | .noFileOrDirectory _ _ _ => .notFound
  | .inappropriateType _ code _ =>
    if errorNumber code = 20 then .notADirectory
    else if errorNumber code = 21 then .isADirectory
    else .other (toString error)
  | .invalidArgument _ code _ =>
    if errorNumber code = 36 then .nameTooLong else .other (toString error)
  | _ => .other (toString error)

/-- Whether the system finds anything at a path. -/
def findPath (path : String) : IO Bool := do
  try
    let _ ← IO.FS.realPath path
    return true
  catch _ =>
    return false

/-- What reading a path gives. -/
def readPath (path : String) : IO (Except Problem ByteArray) := do
  try
    return .ok (← IO.FS.readBinFile path)
  catch problem =>
    return .error (problemOf problem)

/-- What the system tells of some paths, as they are now. -/
def readPaths : List String → IO Files
  | [] => return fun _ => ⟨false, .error .notFound⟩
  | path :: paths => do
    let sight : Sight := ⟨← findPath path, ← readPath path⟩
    let others ← readPaths paths
    return fun p => if p = path then sight else others p

end HostParsing

open HostParsing in
/-- Run the command on the files of the machine. -/
def main (arguments : List String) : IO UInt32 := do
  let home := (← IO.getEnv "HOME").getD "~"
  let files ← readPaths (Settings.path home :: arguments)
  let ending := Command.run files home arguments .never
  (← IO.getStdout).putStr ending.output
  (← IO.getStderr).putStr ending.errors
  return ending.exitCode
