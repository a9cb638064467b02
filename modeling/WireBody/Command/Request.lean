/-!
# What a call asks for

A call names a subcommand, the file of a description and, but for `operations`, an operation;
`serialize` also takes the file of a request and whether documents are declared.  How that is
spelled in arguments, and which texts set what is logged, is left to two libraries, which stand here
as functions of their own: calls are defined, and what is said of calls holds, whatever these are.
-/

set_option autoImplicit false

namespace WireBody.Command

/-- What a call asks for. -/
inductive Request where
  /-- The operations of a description and the kinds of their bodies. -/
  | operations (model : String)
  /-- The program of an operation. -/
  | compile (model operation : String)
  /-- The body of a request. -/
  | serialize (model operation : String) (input : Option String) (declared : Bool)
  deriving DecidableEq, Repr

/-- The files that a call reads. -/
def Request.files : Request → List String
  | .operations model | .compile model _ => [model]
  | .serialize model _ input _ => model :: input.toList

/-- What the arguments of a call come to. -/
inductive Parsed where
  /-- They ask for this. -/
  | asked (request : Request)
  /-- They ask for a text that is the parser's own, such as its help. -/
  | shown (text : String)
  /-- They cannot be understood, for this reason. -/
  | misused (reason : String)
  deriving DecidableEq, Repr

/-- A parser of arguments. -/
abbrev Parser : Type := List String → Parsed

/-- What calls rest on. -/
structure Libraries where
  parse : Parser
  /-- What is wrong with a text that is to set what is logged: an error and its causes. -/
  checkFilter : String → Except (List String) Unit

end WireBody.Command
