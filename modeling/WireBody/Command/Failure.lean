import WireBody.Compile.Error
import WireBody.Run.Error
import WireBody.Service.Description
import WireBody.Settings.Protocol

/-!
# How a call can fail

Every way in which a call fails, and how it is reported: the error itself, then what caused it, down
to the first cause.
-/

set_option autoImplicit false

namespace WireBody.Command

/-! ## Files -/

/-- Why a file cannot be read. -/
inductive FileError where
  | notFound
  | isDirectory
  /-- A part of its path is a file. -/
  | notADirectory
  /-- Its bytes are not UTF-8. -/
  | notText
  /-- What the system says. -/
  | other (message : String)
  deriving DecidableEq, Repr

/-- The sentence that reports an error. -/
def FileError.message : FileError → String
  | .notFound => "No such file or directory (os error 2)"
  | .isDirectory => "Is a directory (os error 21)"
  | .notADirectory => "Not a directory (os error 20)"
  | .notText => "stream did not contain valid UTF-8"
  | .other message => message

/-! ## Failures -/

/-- How a call can fail. -/
inductive Failure where
  /-- The arguments cannot be understood, for a reason that their parser gives. -/
  | misused (reason : String)
  /-- The log level is no filter, for reasons that the library of the log gives. -/
  | logLevel (filter : String) (causes : List String)
  /-- The description cannot be read. -/
  | unreadableModel (path : String) (error : FileError)
  /-- The description is not taken. -/
  | badModel (path : String) (error : Service.LoadError)
  /-- The service speaks another protocol. -/
  | protocol (error : Settings.ProtocolError)
  /-- There is no such operation. -/
  | lookup (error : Service.GraphError)
  /-- The operation has no program. -/
  | compile (operation : String) (error : Compile.CompileError)
  /-- The request cannot be read. -/
  | unreadableInput (path : String) (error : FileError)
  /-- The request is not JSON. -/
  | badInput (path : String) (fault : Fault)
  /-- The request is not an object. -/
  | notAnObject (operation : String)
  /-- The request has no body. -/
  | run (operation : String) (error : Run.RunError)
  deriving DecidableEq, Repr

/-- What is said of a text that is not the document asked for. -/
def faultMessage : Fault → String
  | .truncated => "unexpected end of JSON text"
  | .malformed => "malformed JSON text"
  | .mismatched => "unexpected JSON layout"

/-- The reports of an error of a description. -/
def loadChain : Service.LoadError → List String
  | .undecodable f => ["failed to parse service model: " ++ faultMessage f, faultMessage f]
  | .unsound e => [e.message]

/-- The reports of a failure and of its causes, outermost first. -/
def Failure.chain : Failure → List String
  | .misused reason => [reason]
  | .logLevel filter causes => ("invalid log level filter: " ++ filter) :: causes
  | .unreadableModel path e =>
    ["failed to load model " ++ path, "failed to read model file " ++ path ++ ": " ++ e.message,
      e.message]
  | .badModel path e => ("failed to load model " ++ path) :: loadChain e
  | .protocol e => [e.message]
  | .lookup e => [e.message]
  | .compile operation e => ("failed to compile " ++ operation) :: e.chain
  | .unreadableInput path e => ["failed to read input " ++ path, e.message]
  | .badInput path f => ["invalid JSON in " ++ path, faultMessage f]
  | .notAnObject operation => ["request value of " ++ operation ++ " must be a JSON object"]
  | .run operation e => ["failed to serialize " ++ operation, e.message]

/-! ## Reports -/

/-- A text whose first line starts with `first` and whose further lines start with `further`. -/
def indent (first further text : String) : String :=
  first ++ ("\n" ++ further).intercalate (text.splitOn "\n")

/-- A number at the end of five columns. -/
def column (n : Nat) : String :=
  let digits := toString n
  String.ofList (List.replicate (5 - digits.length) ' ') ++ digits

/-- The lines of some causes: a single one indented, several numbered from zero. -/
def causeLines : List String → List String
  | [cause] => [indent "    " "    " cause]
  | causes => causes.zipIdx.map fun (cause, i) => indent (column i ++ ": ") "       " cause

/-- The report of an error and its causes. -/
def reportOf : List String → String
  | [] => ""
  | [top] => "Error: " ++ top ++ "\n"
  | top :: causes =>
    "Error: " ++ top ++ "\n\nCaused by:\n" ++ "\n".intercalate (causeLines causes) ++ "\n"

/-- The report of a failure; the reason of a parser stands by itself. -/
def Failure.report : Failure → String
  | .misused reason => reason
  | f => reportOf f.chain

/-- The code of a failure; that of arguments is one of its own. -/
def Failure.code : Failure → UInt32
  | .misused _ => 2
  | _ => 1

end WireBody.Command
