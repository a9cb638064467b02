import WireBody.Compile.Routines

/-!
# The program of an operation

The body of an operation is the document of its input's members, unless the input declares one
member to be the body: a structure then makes up the document in the input's place, and a text,
bytes or anything streamed is sent as it is.
-/

set_option autoImplicit false

namespace WireBody.Compile

open WireBody.Program
open WireBody.Service

/-- The program of a document with the members of `root`.  If there are none to write the body is
empty; a document cannot have attributes. -/
def documentProgram (g : Graph) (operation root : String) (payload : Option String) :
    Except CompileError Program :=
  match routines g root with
  | .error e => .error e
  | .ok rs =>
    match rs.get? root with
    | none => .ok (.empty operation)
    | some r =>
      if r.ops.isEmpty then .ok (.empty operation)
      else if r.setsAttribute then .error (.attributeOnDocument root)
      else .ok ⟨operation, .document root payload, rs⟩

/-- The program of a body that is a field as it is. -/
def rawProgram (operation field : String) : Program := ⟨operation, .raw field, .empty⟩

/-- Whether a member is streamed. -/
def streamed (g : Graph) (m : Member) : Except CompileError Bool :=
  match g.isStreaming m with
  | .ok b => .ok b
  | .error e => .error (.graph e)

/-- The program of a body that is the member `m` of the input. -/
def payloadProgram (g : Graph) (operation input : String) (m : Member) :
    Except CompileError Program :=
  match streamed g m with
  | .error e => .error e
  | .ok true => .ok (rawProgram operation m.label)
  | .ok false =>
    match shapeOf g m.target with
    | .error e => .error e
    | .ok s =>
      match s.kind with
      | .struct _ => documentProgram g operation s.name (some m.label)
      | .scalar .string | .scalar .blob => .ok (rawProgram operation m.label)
      | _ => .error (.unsupportedPayload input m.label s.kind.name)

/-- The program of an operation. -/
def program (g : Graph) (o : Operation) : Except CompileError Program :=
  match o.input with
  | none => .ok (.empty o.name)
  | some input =>
    match shapeOf g input with
    | .error e => .error e
    | .ok s =>
      match s.kind with
      | .struct f =>
        match f.payloadMember? with
        | none => documentProgram g o.name input none
        | some m => payloadProgram g o.name s.name m
      | _ => .error (.notAStructure s.name s.kind.name)

end WireBody.Compile
