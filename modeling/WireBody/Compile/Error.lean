import WireBody.Service.Error

/-!
# Why an operation has no program
-/

set_option autoImplicit false

namespace WireBody.Compile

/-- Why an operation has no program. -/
inductive CompileError where
  /-- A name of the graph is looked up in vain. -/
  | graph (error : Service.GraphError)
  /-- A structure is needed and the shape is something else. -/
  | notAStructure (shape kind : String)
  /-- A map has no form in a body. -/
  | unsupportedMap (shape : String)
  /-- A scalar that has no form in a body. -/
  | unsupportedType (shape kind : String)
  /-- A truth value cannot be an attribute. -/
  | booleanAttribute (member : String)
  /-- The declared body is of a kind that cannot be one. -/
  | unsupportedPayload (shape member kind : String)
  /-- The document itself would get an attribute. -/
  | attributeOnDocument (shape : String)
  /-- What is wrong with a member of a structure. -/
  | inMember (owner member : String) (cause : CompileError)
  deriving DecidableEq, Repr

namespace CompileError

/-- The sentence that reports an error. -/
def message : CompileError → String
  | .graph e => e.message
  | .notAStructure shape kind =>
    "shape `" ++ shape ++ "` is a " ++ kind ++ ", expected a structure"
  | .unsupportedMap shape =>
    "shape `" ++ shape ++ "` is a map, which is not supported in REST-XML request bodies"
  | .unsupportedType shape kind =>
    "type " ++ kind ++ " is not yet implemented (shape `" ++ shape ++ "`)"
  | .booleanAttribute member =>
    "unsupported combination: boolean member `" ++ member ++ "` cannot be an XML attribute"
  | .unsupportedPayload shape member kind =>
    "payload member `" ++ member ++ "` of `" ++ shape ++ "` is a " ++ kind ++
      ", which cannot form a request body"
  | .attributeOnDocument shape =>
    "structure `" ++ shape ++ "` is serialized at the document root but sets an XML attribute"
  | .inMember owner member cause => owner ++ "." ++ member ++ ": " ++ cause.message

/-- The error itself, without the members it came from. -/
def rootCause : CompileError → CompileError
  | .inMember _ _ cause => cause.rootCause
  | e => e

/-- The reports of an error and of what caused it, outermost first. -/
def chain : CompileError → List String
  | .inMember owner member cause => (inMember owner member cause).message :: cause.chain
  | e => [e.message]

end CompileError

end WireBody.Compile
