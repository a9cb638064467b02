import WireBody.Command.Session

/-!
# The program

The outer layer of calls: it reads the files and variables that a call needs, and prints what
`Command.call` says.
-/

set_option autoImplicit false

namespace WireBody.Command

/-- The variables that settings come from. -/
def settingNames : List String :=
  ["RUST_LOG", "LOG_LEVEL", "AWSGEN_PROTOCOL", "AWSGEN_XML_DECLARATION"]

/-- Why the system could not read a file.  Opening a path through a file fails with the path,
reading a directory without. -/
def FileError.ofSystem : IO.Error → FileError
  | .noFileOrDirectory _ _ _ => .notFound
  | .inappropriateType none _ _ => .isDirectory
  | .inappropriateType (some _) _ _ => .notADirectory
  | e => .other (toString e)

/-- The bytes of a file. -/
def readBytes (path : String) : IO (Except FileError ByteArray) := do
  try
    return .ok (← IO.FS.readBinFile path)
  catch e =>
    return .error (.ofSystem e)

/-- The files that a call with some arguments reads. -/
def filesOf (lib : Libraries) (arguments : List String) : List String :=
  match lib.parse arguments with
  | .asked request => request.files
  | .shown _ | .misused _ => []

/-- Answer a call. -/
def Libraries.main (lib : Libraries) (arguments : List String) : IO UInt32 := do
  let contents ← (filesOf lib arguments).mapM fun path => return (path, ← readBytes path)
  let values ← settingNames.mapM fun name => return (name, ← IO.getEnv name)
  let files : Files := fun path => (contents.lookup path).getD (.error .notFound)
  let environment : Environment := fun name => (values.lookup name).getD none
  let outcome := call lib files environment arguments
  (← IO.getStdout).write outcome.output
  (← IO.getStderr).putStr outcome.errors
  return outcome.code

end WireBody.Command
