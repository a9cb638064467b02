import WireBody.Command.Failure
import WireBody.Command.Request
import WireBody.Compile.Body
import WireBody.Json.Printer
import WireBody.Program.Form
import WireBody.Request.OfJson
import WireBody.Run.Interp
import WireBody.Settings.Config

/-!
# Calls

What a call prints and how it ends, as a function of its arguments, its environment and the files
there are.  A call goes through steps that may fail, and prints in between: what it has printed
stays printed if it fails later, as with a listing, which is printed line by line.  Its output can
always be written.  What is logged goes where failures are reported, and is left out here; only that
it can be set up at all is looked at.

Main definitions: `Act` is what steps do, `respond` what a request does, and `call` what a call with
some arguments does.
-/

set_option autoImplicit false

namespace WireBody.Command

open WireBody.Service
open WireBody.Settings

/-- The files there are: the bytes of a path, or why it cannot be read. -/
abbrev Files : Type := String → Except FileError ByteArray

/-- The variables that are set to a text. -/
abbrev Environment : Type := String → Option String

/-- The text of a file. -/
def readText (files : Files) (path : String) : Except FileError String :=
  match files path with
  | .error e => .error e
  | .ok bytes =>
    match String.fromUTF8? bytes with
    | some text => .ok text
    | none => .error .notText

/-! ## Acts -/

/-- What a call does: it fails or has a result, and prints behind what has been printed before. -/
abbrev Act : Type → Type := ExceptT Failure (StateM ByteArray)

namespace Act

variable {α : Type}

/-- What an act comes to behind some output, and the output then. -/
def after (act : Act α) (printed : ByteArray) : Except Failure α × ByteArray :=
  act.run.run printed

/-- Print some bytes. -/
def print (content : ByteArray) : Act Unit := modify fun printed => printed ++ content

/-- A step that prints nothing. -/
instance : MonadLift (Except Failure) Act := ⟨fun step => ExceptT.mk (pure step)⟩

end Act

/-! ## Steps -/

/-- The settings, if what is logged can be set by them.  Another variable goes before the log level,
and what is wrong in it is passed over. -/
def settings (lib : Libraries) (environment : Environment) : Except Failure Config :=
  let config := Config.ofEnvironment environment
  if (environment "RUST_LOG").isSome then .ok config
  else
    match lib.checkFilter config.logLevel with
    | .error causes => .error (.logLevel config.logLevel causes)
    | .ok () => .ok config

/-- The graph of the description in a file. -/
def loadModel (files : Files) (path : String) : Except Failure Graph :=
  match readText files path with
  | .error e => .error (.unreadableModel path e)
  | .ok text => (Graph.ofText text).mapError (.badModel path)

/-- A service has to speak the protocol with XML bodies. -/
def checkProtocol (config : Config) (g : Graph) : Except Failure Unit :=
  match Protocol.ofGraph g config.protocol with
  | .error e => .error (.protocol e)
  | .ok .restXml => .ok ()
  | .ok p => .error (.protocol (.unsupported p))

/-- The graph of a service that can be served. -/
def openModel (config : Config) (files : Files) (path : String) : Except Failure Graph := do
  let g ← loadModel files path
  checkProtocol config g
  return g

/-- The program of an operation. -/
def programOf (g : Graph) (operation : String) : Except Failure Program :=
  match g.operation operation with
  | .error e => .error (.lookup e)
  | .ok o => (Compile.program g o).mapError (.compile o.name)

/-- The request in a file; without a file there is none. -/
def readInput (files : Files) : Option String → Except Failure (Option Request.Value)
  | none => .ok none
  | some path =>
    match readText files path with
    | .error e => .error (.unreadableInput path e)
    | .ok text => (Request.Value.ofText text).mapError (.badInput path)

/-- A request has to be an object, if there is one. -/
def checkObject (operation : String) (request : Option Request.Value) : Except Failure Unit :=
  match request with
  | some v => if v.fields?.isSome then .ok () else .error (.notAnObject operation)
  | none => .ok ()

/-- The body of a request, declared if the settings and the call have it so. -/
def bodyOf (config : Config) (p : Program) (declared : Bool) (request : Option Request.Value) :
    Except Failure ByteArray :=
  (p.serialize (config.xmlDeclaration && declared) request).mapError (.run p.operation)

/-! ## Requests -/

/-- What is said of the body of an operation. -/
def bodyKind (g : Graph) (o : Operation) : String :=
  match Compile.program g o with
  | .error e => "error: " ++ e.message
  | .ok p =>
    match p.plan with
    | .empty => "empty"
    | .raw field => "raw (" ++ field ++ ")"
    | .document root _ => "xml (" ++ root ++ ")"

/-- The line of an operation. -/
def operationLine (g : Graph) (o : Operation) : String := o.name ++ "\t" ++ bodyKind g o ++ "\n"

/-- Print the operations of a service, one after the other. -/
def printListing (g : Graph) : Act Unit :=
  g.operations.values.forM fun o => Act.print (operationLine g o).toUTF8

/-- What a request does. -/
def respond (config : Config) (files : Files) : Command.Request → Act Unit
  | .operations model => do
    let g ← openModel config files model
    printListing g
  | .compile model operation => do
    let g ← openModel config files model
    let p ← programOf g operation
    Act.print (p.toJson.pretty ++ "\n").toUTF8
  | .serialize model operation input declared => do
    let g ← openModel config files model
    let p ← programOf g operation
    let request ← readInput files input
    checkObject p.operation request
    let content ← bodyOf config p declared request
    Act.print content

/-! ## Calls -/

/-- What a call with some arguments does. -/
def act (lib : Libraries) (files : Files) (environment : Environment) (arguments : List String) :
    Act Unit :=
  match lib.parse arguments with
  | .misused reason => throw (.misused reason)
  | .shown text => Act.print text.toUTF8
  | .asked request => do
    let config ← settings lib environment
    respond config files request

/-- How a call ends. -/
structure Outcome where
  code : UInt32
  output : ByteArray
  /-- The report of a failure. -/
  errors : String

/-- How a call with some arguments ends. -/
def call (lib : Libraries) (files : Files) (environment : Environment) (arguments : List String) :
    Outcome :=
  match (act lib files environment arguments).after .empty with
  | (.ok (), output) => ⟨0, output, ""⟩
  | (.error failure, output) => ⟨failure.code, output, failure.report⟩

end WireBody.Command
