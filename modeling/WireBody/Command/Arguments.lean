import WireBody.Command.Request

/-!
# The arguments of a call

A parser of arguments.  After the subcommand come its operands, and anywhere among them options:
`-h` or `--help`, and for `serialize` also `-i` or `--input` with the file of a request, and
`--no-declaration`.  An argument `--` ends the options.  Options that are no request for help may be
given once, and the names of files must not be empty.

Arguments are taken one after the other: help is given as soon as it is asked for, whatever comes
later, and refused if something was wrong before.  The wording of help and of refusals is not fixed
here.
-/

set_option autoImplicit false

namespace WireBody.Command

/-- What a parser says in its own words. -/
structure Texts where
  /-- The help on a subcommand, or on all of them. -/
  help : Option String → String
  /-- Why arguments cannot be understood. -/
  misuse : List String → String

/-- The name and version of this program. -/
def versionText : String := "awsgen 0.3.0\n"

/-! ## Subcommands -/

/-- What is done with a description. -/
inductive Subcommand where
  | operations
  | compile
  | serialize
  deriving DecidableEq, Repr

namespace Subcommand

/-- The name of a subcommand. -/
def name : Subcommand → String
  | .operations => "operations"
  | .compile => "compile"
  | .serialize => "serialize"

/-- Every subcommand. -/
def all : List Subcommand := [.operations, .compile, .serialize]

/-- The subcommand of a name. -/
def ofName? (n : String) : Option Subcommand := all.find? fun s => s.name = n

/-- How many operands a subcommand has. -/
def arity : Subcommand → Nat
  | .operations => 1
  | .compile | .serialize => 2

/-- Whether a subcommand has options besides its help. -/
def hasOptions : Subcommand → Bool
  | .serialize => true
  | .operations | .compile => false

end Subcommand

/-! ## Single arguments -/

/-- The arguments after the subcommand, so far. -/
structure Given where
  /-- The operands, last one first. -/
  operands : List String
  input : Option String
  noDeclaration : Bool
  /-- The next argument is the value of `input`. -/
  awaitsInput : Bool
  /-- There are no more options. -/
  ended : Bool

/-- Why no more arguments are taken. -/
inductive Halt where
  | help
  | misuse
  deriving DecidableEq, Repr

namespace Given

/-- Nothing. -/
def none : Given := ⟨[], .none, false, false, false⟩

variable (s : Subcommand) (g : Given)

/-- Take an operand.  There are only so many, and the first one is the name of a file. -/
def addOperand (a : String) : Except Halt Given :=
  if g.operands.length = s.arity || g.operands.isEmpty && a.isEmpty then .error .misuse
  else .ok { g with operands := a :: g.operands }

/-- Take the value of `input`. -/
def setInput (value : String) : Except Halt Given :=
  if g.input.isSome || value.isEmpty then .error .misuse
  else .ok { g with input := some value, awaitsInput := false }

/-- Take `input`, whose value may follow. -/
def awaitInput : Except Halt Given :=
  if g.input.isSome then .error .misuse else .ok { g with awaitsInput := true }

/-- Take `no-declaration`. -/
def setNoDeclaration : Except Halt Given :=
  if g.noDeclaration then .error .misuse else .ok { g with noDeclaration := true }

/-- Take a long option, from behind its dashes on; its value may follow an equals sign. -/
def addLong (body : List Char) : Except Halt Given :=
  match body.span (· != '=') with
  | (name, []) =>
    if String.ofList name = "help" then .error .help
    else if s.hasOptions && String.ofList name = "input" then g.awaitInput
    else if s.hasOptions && String.ofList name = "no-declaration" then g.setNoDeclaration
    else .error .misuse
  | (name, _ :: value) =>
    if s.hasOptions && String.ofList name = "input" then g.setInput (String.ofList value)
    else .error .misuse

/-- Take a short option, from behind its dash on; its value may follow at once or after an equals
sign. -/
def addShort (body : List Char) : Except Halt Given :=
  match s.hasOptions, body with
  | _, 'h' :: _ => .error .help
  | true, ['i'] => g.awaitInput
  | true, 'i' :: '=' :: value => g.setInput (String.ofList value)
  | true, 'i' :: value => g.setInput (String.ofList value)
  | _, _ => .error .misuse

/-- Take an argument. -/
def add (a : String) : Except Halt Given :=
  match g.ended, g.awaitsInput, a.toList with
  | true, _, _ => g.addOperand s a
  | false, true, ['-'] => g.setInput a
  | false, true, '-' :: _ => .error .misuse
  | false, true, _ => g.setInput a
  | false, false, ['-', '-'] => .ok { g with ended := true }
  | false, false, ['-'] => g.addOperand s a
  | false, false, '-' :: '-' :: body => g.addLong s body
  | false, false, '-' :: body => g.addShort s body
  | false, false, _ => g.addOperand s a

/-- What the arguments after a subcommand ask for, if nothing is left open. -/
def request? : Option Request :=
  if g.awaitsInput then .none
  else
    match s, g.operands with
    | .operations, [model] => some (.operations model)
    | .compile, [operation, model] => some (.compile model operation)
    | .serialize, [operation, model] =>
      some (.serialize model operation g.input (!g.noDeclaration))
    | _, _ => .none

end Given

/-! ## All arguments -/

/-- What the arguments after a subcommand ask for. -/
def requestOf (s : Subcommand) (arguments : List String) : Except Halt Request :=
  match arguments.foldlM (Given.add s) .none with
  | .error halt => .error halt
  | .ok g =>
    match g.request? s with
    | some request => .ok request
    | none => .error .misuse

/-- What is asked for behind `help`: all that there is, or a subcommand.  Help has help itself. -/
def topicOf : List String → Option (Option String)
  | [] => some none
  | [name] => if name = "help" || (Subcommand.ofName? name).isSome then some name else none
  | _ => none

/-- What the arguments of a call come to. -/
def parseArguments (texts : Texts) (arguments : List String) : Parsed :=
  match arguments with
  | [] => .misused (texts.misuse arguments)
  | first :: rest =>
    match Subcommand.ofName? first with
    | some s =>
      match requestOf s rest with
      | .ok request => .asked request
      | .error .help => .shown (texts.help s.name)
      | .error .misuse => .misused (texts.misuse arguments)
    | none =>
      if first = "help" then
        match topicOf rest with
        | some topic => .shown (texts.help topic)
        | none => .misused (texts.misuse arguments)
      else if first = "--help" then .shown (texts.help none)
      else if first = "--version" then .shown versionText
      else
        match first.toList with
        | '-' :: 'h' :: _ => .shown (texts.help none)
        | '-' :: 'V' :: _ => .shown versionText
        | _ => .misused (texts.misuse arguments)

end WireBody.Command
