import WireBody.Service.Graph

/-!
# Wire protocols

The protocols that a service can declare.  Only the one with XML bodies has programs here.
-/

set_option autoImplicit false

namespace WireBody.Settings

/-- A wire protocol. -/
inductive Protocol where
  | restXml
  | restJson
  | json
  | query
  | ec2
  deriving DecidableEq, Repr

/-- What is wrong with a declared protocol. -/
inductive ProtocolError where
  /-- No protocol has this name. -/
  | unknown (name : String)
  /-- The protocol has no request bodies here. -/
  | unsupported (protocol : Protocol)
  deriving DecidableEq, Repr

namespace Protocol

/-- The name of a protocol in a description. -/
def name : Protocol → String
  | .restXml => "rest-xml"
  | .restJson => "rest-json"
  | .json => "json"
  | .query => "query"
  | .ec2 => "ec2"

/-- Every protocol. -/
def all : List Protocol := [.restXml, .restJson, .json, .query, .ec2]

/-- The protocol of a name. -/
def ofName? (n : String) : Option Protocol := all.find? fun p => p.name = n

@[simp] theorem ofName?_name (p : Protocol) : ofName? p.name = some p := by
  cases p <;> rfl

/-- The protocol of a name that has to be one. -/
def ofName (n : String) : Except ProtocolError Protocol :=
  match ofName? n with
  | some p => .ok p
  | none => .error (.unknown n)

/-- The protocol that a service declares, or else the one given. -/
def ofGraph (g : Service.Graph) (fallback : Protocol) : Except ProtocolError Protocol :=
  if g.metadata.protocol.isEmpty then .ok fallback else ofName g.metadata.protocol

end Protocol

/-- The sentence that reports a protocol that cannot be used. -/
def ProtocolError.message : ProtocolError → String
  | .unknown n => "configuration error: unknown protocol: " ++ n
  | .unsupported p => "no request serializer for protocol `" ++ p.name ++ "`"

/-- The media type of documents. -/
def contentType : String := "application/xml"

end WireBody.Settings
