import GraphQuery.Command.Run

/-!
# The command line program

Runs a command line in the environment of the process, and leaves its outcome there.

Key definitions: `processEnvironment`, `main`.
-/

namespace GraphQuery

/-- The code of a name that is too long, which is `-36` as a word. -/
def longNameCode : UInt32 := -36

/-- Why a file or the input cannot be read. Opening what lies below a plain file fails with the name
of the file, and reading a directory fails without a name. -/
def readFault (e : IO.Error) : FileFault :=
  match e with
  | .noFileOrDirectory .. => .notFound
  | .permissionDenied .. => .denied
  | .inappropriateType (some _) .. => .notDirectory
  | .inappropriateType none .. => .isDirectory
  | .invalidArgument _ code _ => if code = longNameCode then .nameTooLong else .other (toString e)
  | .userError _ => .notText
  | _ => .other (toString e)

/-- Reads a file or the input. -/
def readText (read : IO String) : IO (Except FileFault String) :=
  try return .ok (← read)
  catch e => return .error (readFault e)

/-- The files and the standard input of the process. -/
def processEnvironment : Environment IO where
  fileText file := readText (IO.FS.readFile file)
  inputText := do
    let input ← IO.getStdin
    if ← input.isTty then return .ok none
    return (← readText (IO.FS.Stream.readToEnd input)).map some

end GraphQuery

def main (arguments : List String) : IO UInt32 := do
  let outcome ← GraphQuery.runCommand GraphQuery.processEnvironment arguments
  IO.print outcome.output
  IO.eprint outcome.errors
  return UInt32.ofNat outcome.code
