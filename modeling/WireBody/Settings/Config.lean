import WireBody.Json.Reader
import WireBody.Json.Record
import WireBody.Settings.Protocol

/-!
# Settings

What can be set from outside: how much is logged, the protocol of services that declare none, and
whether documents are declared as such.  Settings come from environment variables, each with a
default, or from a JSON document that gives all of them.
-/

set_option autoImplicit false

namespace WireBody.Settings

/-- The settings. -/
structure Config where
  logLevel : String
  protocol : Protocol
  xmlDeclaration : Bool
  deriving DecidableEq, Repr

namespace Config

/-- The settings where nothing is set. -/
def default : Config := ⟨"info", .restXml, true⟩

/-! ## From the environment -/

/-- Whether a text switches something on: `1`, or `true` in any case of its letters. -/
def isOn (s : String) : Bool := s = "1" || s.toLower = "true"

/-- The settings of an environment.  A protocol that is not known is passed over. -/
def ofEnvironment (variable_ : String → Option String) : Config where
  logLevel := (variable_ "LOG_LEVEL").getD default.logLevel
  protocol := ((variable_ "AWSGEN_PROTOCOL").bind Protocol.ofName?).getD default.protocol
  xmlDeclaration := ((variable_ "AWSGEN_XML_DECLARATION").map isOn).getD default.xmlDeclaration

/-! ## From a document -/

/-- The fields of settings. -/
def fields : List String := ["logLevel", "protocol", "xmlDeclaration"]

/-- The name of a protocol. -/
def protocolName : Json → Except Fault Protocol
  | .string s => (Protocol.ofName? s).elim (.error .mismatched) .ok
  | _ => .error .mismatched

/-- A protocol: its name, or an object that has the name alone, with null. -/
def protocolOf : Json → Except Fault Protocol
  | .object [(s, .null)] => protocolName (.string s)
  | j => protocolName j

/-- The settings of a document. -/
def ofJson (j : Json) : Except Fault Config := do
  let r ← Record.ofJson fields j
  let logLevel ← r.needed "logLevel" Json.asString
  let protocol ← r.needed "protocol" protocolOf
  let xmlDeclaration ← r.needed "xmlDeclaration" Json.asBool
  return ⟨logLevel, protocol, xmlDeclaration⟩

/-- The layout of settings. -/
def layout : Layout :=
  .takenBy
    (.fields (fields.zip
      [.takenBy .scalar Json.asString, .choice (.takenBy .scalar protocolName),
       .takenBy .scalar Json.asBool]))
    ofJson

/-- The settings of a text. -/
def ofText (text : String) : Except Fault Config := Json.read layout text >>= ofJson

/-- Settings as a document. -/
def toJson (c : Config) : Json :=
  .object
    [("logLevel", .string c.logLevel), ("protocol", .string c.protocol.name),
     ("xmlDeclaration", .bool c.xmlDeclaration)]

end Config

end WireBody.Settings
