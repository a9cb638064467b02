import WireBody.Json.Basic
import WireBody.Service.Graph

/-!
# Graphs as documents

The JSON form in which shapes, members, operations and whole graphs are shown.
-/

set_option autoImplicit false

namespace WireBody

/-- A string, or null where there is none. -/
def Json.ofString? (s : Option String) : Json := s.elim .null .string

/-- An entry that is left out where there is no value. -/
def Json.entry? (name : String) (value : Option Json) : List (String × Json) :=
  value.elim [] fun j => [(name, j)]

namespace Service

/-- A namespace; without an abbreviation it has no `prefix`. -/
def XmlNamespace.toJson (n : XmlNamespace) : Json :=
  .object (("uri", .string n.uri) :: Json.entry? "prefix" (n.nsPrefix.map .string))

/-- A member, with null for what it does not have. -/
def Member.toJson (m : Member) : Json :=
  .object
    [("name", .ofString? m.name), ("shape", .string m.target),
     ("locationName", .ofString? m.locationName), ("location", .string m.location.name),
     ("required", .bool m.required), ("xmlAttribute", .bool m.xmlAttribute),
     ("xmlNamespace", m.xmlNamespace.elim .null XmlNamespace.toJson), ("payload", .bool m.payload),
     ("streaming", .bool m.streaming)]

/-- What a kind adds to the form of its shape. -/
def Kind.entries : Kind → List (String × Json)
  | .struct f =>
    ("members", .array (f.members.map Member.toJson)) ::
      Json.entry? "payload" (f.payload.map .string)
  | .list m flattened => [("member", m.toJson), ("flattened", .bool flattened)]
  | .map key value flattened =>
    [("key", key.toJson), ("value", value.toJson), ("flattened", .bool flattened)]
  | .scalar _ => []

/-- A shape. -/
def Shape.toJson (s : Shape) : Json :=
  .object
    ([("name", .string s.name), ("type", .string s.kind.name)] ++ s.kind.entries ++
      Json.entry? "xmlNamespace" (s.xmlNamespace.map XmlNamespace.toJson) ++
      [("streaming", .bool s.streaming)])

/-- An operation; without input it has no `input`. -/
def Operation.toJson (o : Operation) : Json :=
  .object (("name", .string o.name) :: Json.entry? "input" (o.input.map .string))

/-- The metadata; an identifier or version that is not given is left out. -/
def Metadata.toJson (m : Metadata) : Json :=
  .object
    (("protocol", .string m.protocol) :: Json.entry? "serviceId" (m.serviceId.map .string) ++
      Json.entry? "apiVersion" (m.apiVersion.map .string))

/-- A map, as an object in name order. -/
def mapToJson {α : Type} (f : α → Json) (m : NameMap α) : Json :=
  .object (m.entries.map fun e => (e.1, f e.2))

/-- A graph. -/
def Graph.toJson (g : Graph) : Json :=
  .object
    [("metadata", g.metadata.toJson), ("shapes", mapToJson Shape.toJson g.shapes),
     ("operations", mapToJson Operation.toJson g.operations)]

end Service

end WireBody
