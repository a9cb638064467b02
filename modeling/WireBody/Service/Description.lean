import WireBody.Json.Reader
import WireBody.Json.Record
import WireBody.Service.Validity

/-!
# Service descriptions

How a graph is read from a description.  A description is a JSON document with `metadata`,
`operations` and `shapes`; of each of these only the fields listed here are read, and other names
are passed over.  A shape says in `type` what it is, and that decides which of its fields are read.

Main definitions: `Graph.ofJson` reads the graph of a document, `Graph.load` reads and checks it,
and `Graph.ofText` does both from text.
-/

set_option autoImplicit false

namespace WireBody.Service

/-- Why a description is not taken. -/
inductive LoadError where
  /-- It is not a document of this layout. -/
  | undecodable (fault : Fault)
  /-- Its graph has a defect. -/
  | unsound (error : GraphError)
  deriving DecidableEq, Repr

namespace Description

/-! ## Members -/

/-- A location: its name, or an object that has the name alone, with null or an empty object. -/
def location : Json → Except Fault Location
  | .string s | .object [(s, .null)] | .object [(s, .object [])] =>
    match Location.ofName? s with
    | some l => .ok l
    | none => .error .mismatched
  | _ => .error .mismatched

/-- The fields of a namespace. -/
def namespaceFields : List String := ["uri", "prefix"]

/-- A namespace. -/
def xmlNamespace (j : Json) : Except Fault XmlNamespace := do
  let r ← Record.ofJson namespaceFields j
  let uri ← r.needed "uri" Json.asString
  let nsPrefix ← r.omittable "prefix" Json.asString
  return ⟨uri, nsPrefix⟩

/-- The fields of a member. -/
def memberFields : List String :=
  ["shape", "locationName", "location", "xmlAttribute", "xmlNamespace", "streaming"]

/-- A member.  Its name, and whether it is required or the whole body, are said by the structure
that it belongs to. -/
def member (j : Json) : Except Fault Member := do
  let r ← Record.ofJson memberFields j
  let target ← r.needed "shape" Json.asString
  let locationName ← r.optional "locationName" Json.asString
  let location ← r.optional "location" location
  let xmlAttribute ← r.defaulted "xmlAttribute" false Json.asBool
  let xmlNamespace ← r.optional "xmlNamespace" xmlNamespace
  let streaming ← r.defaulted "streaming" false Json.asBool
  return { name := none, target, locationName, location := location.getD .body, required := false,
           xmlAttribute, xmlNamespace, payload := false, streaming }

/-- A member as its structure has it. -/
def declare (required : List String) (payload : Option String) (name : String) (m : Member) :
    Member :=
  { m with name := some name, required := required.contains name, payload := payload = some name }

/-! ## Shapes -/

/-- The fields of a structure. -/
def structureFields : List String := ["members", "required", "payload", "xmlNamespace"]

/-- The fields of a list. -/
def listFields : List String := ["member", "flattened", "xmlNamespace"]

/-- The fields of a map. -/
def mapFields : List String := ["key", "value", "flattened", "xmlNamespace"]

/-- The fields of a scalar. -/
def scalarFields : List String := ["streaming", "xmlNamespace"]

/-- A structure. -/
def structureShape (name : String) (j : Json) : Except Fault Shape := do
  let r ← Record.ofJson structureFields j
  let members ← r.defaulted "members" [] (Json.asTableOf fun _ => member)
  let required ← r.defaulted "required" [] (Json.asArrayOf Json.asString)
  let payload ← r.optional "payload" Json.asString
  let xmlNamespace ← r.optional "xmlNamespace" xmlNamespace
  return { name, xmlNamespace, streaming := false,
           kind := .struct ⟨members.map fun e => declare required payload e.1 e.2, payload⟩ }

/-- A list. -/
def listShape (name : String) (j : Json) : Except Fault Shape := do
  let r ← Record.ofJson listFields j
  let item ← r.needed "member" member
  let flattened ← r.defaulted "flattened" false Json.asBool
  let xmlNamespace ← r.optional "xmlNamespace" xmlNamespace
  return { name, xmlNamespace, streaming := false, kind := .list item flattened }

/-- A map. -/
def mapShape (name : String) (j : Json) : Except Fault Shape := do
  let r ← Record.ofJson mapFields j
  let key ← r.needed "key" member
  let value ← r.needed "value" member
  let flattened ← r.defaulted "flattened" false Json.asBool
  let xmlNamespace ← r.optional "xmlNamespace" xmlNamespace
  return { name, xmlNamespace, streaming := false, kind := .map key value flattened }

/-- A scalar, which alone can be streamed. -/
def scalarShape (name : String) (scalar : Scalar) (j : Json) : Except Fault Shape := do
  let r ← Record.ofJson scalarFields j
  let streaming ← r.defaulted "streaming" false Json.asBool
  let xmlNamespace ← r.optional "xmlNamespace" xmlNamespace
  return { name, xmlNamespace, streaming, kind := .scalar scalar }

/-- What a shape can say that it is. -/
inductive ShapeType where
  | struct
  | list
  | map
  | scalar (scalar : Scalar)
  deriving DecidableEq, Repr

/-- The type of a name. -/
def ShapeType.ofName? (n : String) : Option ShapeType :=
  if n = "structure" then some .struct
  else if n = "list" then some .list
  else if n = "map" then some .map
  else (Scalar.ofName? n).map .scalar

/-- A type: its name. -/
def shapeType : Json → Except Fault ShapeType
  | .string s =>
    match ShapeType.ofName? s with
    | some t => .ok t
    | none => .error .mismatched
  | _ => .error .mismatched

/-- A shape of a type. -/
def shapeOfType (name : String) : ShapeType → Json → Except Fault Shape
  | .struct => structureShape name
  | .list => listShape name
  | .map => mapShape name
  | .scalar s => scalarShape name s

/-- A shape: an object that gives its type once, or an array that begins with it. -/
def shape (name : String) : Json → Except Fault Shape
  | .object entries =>
    match entries.filter fun e => e.1 = "type" with
    | [(_, tag)] => do shapeOfType name (← shapeType tag) (.object entries)
    | _ => .error .mismatched
  | .array (tag :: rest) => do shapeOfType name (← shapeType tag) (.array rest)
  | _ => .error .mismatched

/-! ## Operations and metadata -/

/-- The fields of a reference to a shape. -/
def referenceFields : List String := ["shape"]

/-- A reference to a shape. -/
def reference (j : Json) : Except Fault String := do
  let r ← Record.ofJson referenceFields j
  let target ← r.needed "shape" Json.asString
  return target

/-- The fields of an operation. -/
def operationFields : List String := ["name", "input"]

/-- An operation, which has the name of its entry unless it says otherwise. -/
def operation (key : String) (j : Json) : Except Fault Operation := do
  let r ← Record.ofJson operationFields j
  let name ← r.optional "name" Json.asString
  let input ← r.optional "input" reference
  return ⟨name.getD key, input⟩

/-- The fields of the metadata. -/
def metadataFields : List String := ["protocol", "serviceId", "apiVersion"]

/-- The metadata. -/
def metadata (j : Json) : Except Fault Metadata := do
  let r ← Record.ofJson metadataFields j
  let protocol ← r.defaulted "protocol" "" Json.asString
  let serviceId ← r.omittable "serviceId" Json.asString
  let apiVersion ← r.omittable "apiVersion" Json.asString
  return ⟨protocol, serviceId, apiVersion⟩

/-! ## Whole descriptions -/

/-- The fields of a description. -/
def topFields : List String := ["metadata", "operations", "shapes"]

/-- The layout of strings. -/
def textLayout : Layout := .takenBy .scalar Json.asString

/-- The layout of the metadata. -/
def metadataLayout : Layout :=
  .fields (metadataFields.zip [textLayout, .orNull textLayout, .orNull textLayout])

/-- The layout of references to shapes. -/
def referenceLayout : Layout := .takenBy (.fields (referenceFields.zip [textLayout])) reference

/-- The layout of operations. -/
def operationLayout : Layout :=
  .takenBy (.fields (operationFields.zip [.orNull textLayout, .orNull referenceLayout]))
    (operation "")

/-- The layout of shapes. -/
def shapeLayout : Layout :=
  .takenBy (.tagged "type" (.takenBy .scalar shapeType)) (shape "")

/-- The layout of a description. -/
def layout : Layout :=
  .fields (topFields.zip [metadataLayout, .entries operationLayout, .entries shapeLayout])

end Description

namespace Graph

/-- The graph of some shapes and operations; of two of one name the later one stays. -/
def assemble (metadata : Metadata) (shapes : List Shape) (operations : List Operation) : Graph :=
  operations.foldl insertOperation (shapes.foldl insertShape (empty metadata))

/-- The graph of a description. -/
def ofJson (j : Json) : Except Fault Graph := do
  let r ← Record.ofJson Description.topFields j
  let metadata ← r.defaulted "metadata" Metadata.none Description.metadata
  let operations ← r.defaulted "operations" [] (Json.asTableOf Description.operation)
  let shapes ← r.defaulted "shapes" [] (Json.asTableOf Description.shape)
  return assemble metadata (shapes.map (·.2)) (operations.map (·.2))

/-- The graph of a description, if it is sound. -/
def load (j : Json) : Except LoadError Graph :=
  match ofJson j with
  | .error f => .error (.undecodable f)
  | .ok g =>
    match g.check with
    | .error e => .error (.unsound e)
    | .ok () => .ok g

/-- The graph of the text of a description, if it is sound. -/
def ofText (text : String) : Except LoadError Graph :=
  match Json.read Description.layout text with
  | .error f => .error (.undecodable f)
  | .ok j => load j

end Graph

end WireBody.Service
