/-!
# Shapes and members

A service description is a graph of named shapes.  A structure has members, and a member points to
another shape and says how its value travels: where in the request, under which name, as an element
or as an attribute.  A list points to the shape of its items through a member without a name, and so
does a map to those of its keys and values.
-/

set_option autoImplicit false

namespace WireBody.Service

/-! ## Members -/

/-- Where in a request a member travels. -/
inductive Location where
  | body
  /-- A header of its own. -/
  | header
  /-- A family of headers of one beginning. -/
  | headers
  /-- A label in the path. -/
  | uri
  /-- A parameter of the query. -/
  | queryString
  /-- The status of a response. -/
  | statusCode
  deriving DecidableEq, Repr

namespace Location

/-- The name of a location in a description. -/
def name : Location → String
  | .body => "body"
  | .header => "header"
  | .headers => "headers"
  | .uri => "uri"
  | .queryString => "querystring"
  | .statusCode => "statusCode"

/-- Every location. -/
def all : List Location := [.body, .header, .headers, .uri, .queryString, .statusCode]

/-- The location of a name. -/
def ofName? (n : String) : Option Location := all.find? fun l => l.name = n

@[simp] theorem ofName?_name (l : Location) : ofName? l.name = some l := by
  cases l <;> rfl

theorem name_of_ofName? {n : String} {l : Location} (found : ofName? n = some l) : l.name = n := by
  simpa using List.find?_some found

end Location

/-- A namespace that an element declares. -/
structure XmlNamespace where
  uri : String
  /-- The abbreviation it is declared under; without one it is the default namespace. -/
  nsPrefix : Option String
  deriving DecidableEq, Repr

/-- A member of a structure, or the way from a list to its items or from a map to its entries. -/
structure Member where
  /-- The declared name; items, keys and values have none. -/
  name : Option String
  /-- The shape it points to. -/
  target : String
  /-- The name on the wire, where it is not the declared one. -/
  locationName : Option String
  location : Location
  /-- A value has to be there. -/
  required : Bool
  /-- Its value is an attribute of the element around it. -/
  xmlAttribute : Bool
  /-- The namespace declared for it. -/
  xmlNamespace : Option XmlNamespace
  /-- It is the whole body of the request. -/
  payload : Bool
  /-- Its value is sent as it is. -/
  streaming : Bool
  deriving DecidableEq, Repr

namespace Member

/-- A member without a name that points to a shape. -/
def element (target : String) : Member :=
  ⟨none, target, none, .body, false, false, none, false, false⟩

/-- What an unnamed member is called. -/
def anonymous : String := "member"

/-- The name by which a request gives the value of a member, and errors speak of it. -/
def label (m : Member) : String := (m.name.or m.locationName).getD anonymous

/-- The name of its element or attribute. -/
def tag (m : Member) : String := (m.locationName.or m.name).getD anonymous

/-- It travels in the body. -/
def inBody (m : Member) : Bool := m.location = .body

/-- Its scalars are written as attributes.  Only a named member is. -/
def asAttribute (m : Member) : Bool := m.xmlAttribute && m.name.isSome

end Member

/-! ## Shapes -/

/-- The kinds of shapes that hold no others. -/
inductive Scalar where
  | string
  | blob
  | boolean
  | integer
  | long
  | float
  | double
  | timestamp
  deriving DecidableEq, Repr

namespace Scalar

/-- The name of a scalar kind in a description. -/
def name : Scalar → String
  | .string => "string"
  | .blob => "blob"
  | .boolean => "boolean"
  | .integer => "integer"
  | .long => "long"
  | .float => "float"
  | .double => "double"
  | .timestamp => "timestamp"

/-- Every scalar kind. -/
def all : List Scalar := [.string, .blob, .boolean, .integer, .long, .float, .double, .timestamp]

/-- The scalar kind of a name. -/
def ofName? (n : String) : Option Scalar := all.find? fun s => s.name = n

@[simp] theorem ofName?_name (s : Scalar) : ofName? s.name = some s := by
  cases s <;> rfl

theorem name_of_ofName? {n : String} {s : Scalar} (found : ofName? n = some s) : s.name = n := by
  simpa using List.find?_some found

end Scalar

/-- What a structure consists of. -/
structure Fields where
  /-- The members in the order of their declaration. -/
  members : List Member
  /-- The name of the member that is the whole body. -/
  payload : Option String
  deriving DecidableEq, Repr

namespace Fields

/-- The first member of a name. -/
def member? (f : Fields) (name : String) : Option Member :=
  f.members.find? fun m => m.name = some name

/-- The member that is the whole body, if one is declared. -/
def payloadMember? (f : Fields) : Option Member := f.payload.bind f.member?

/-- The members that travel in the body. -/
def bodyMembers (f : Fields) : List Member := f.members.filter Member.inBody

end Fields

/-- What a shape is. -/
inductive Kind where
  | struct (fields : Fields)
  /-- A list; a flattened one has no element around its items. -/
  | list (member : Member) (flattened : Bool)
  | map (key value : Member) (flattened : Bool)
  | scalar (scalar : Scalar)
  deriving DecidableEq, Repr

/-- The name of a kind in a description. -/
def Kind.name : Kind → String
  | .struct _ => "structure"
  | .list _ _ => "list"
  | .map _ _ _ => "map"
  | .scalar s => s.name

/-- A named shape. -/
structure Shape where
  name : String
  kind : Kind
  /-- The namespace declared on the shape itself. -/
  xmlNamespace : Option XmlNamespace
  /-- Its values are sent as they are. -/
  streaming : Bool
  deriving DecidableEq, Repr

namespace Shape

/-- The fields of a structure shape. -/
def fields? (s : Shape) : Option Fields :=
  match s.kind with
  | .struct f => some f
  | _ => none

/-- Declare a member of a structure to be the whole body; other shapes stay as they are. -/
def withPayload (s : Shape) (name : String) : Shape :=
  match s.kind with
  | .struct f =>
    { s with
      kind := .struct ⟨f.members.map fun m => { m with payload := m.name = some name }, some name⟩ }
  | _ => s

end Shape

/-! ## Operations -/

/-- An operation and the shape of its input. -/
structure Operation where
  name : String
  input : Option String
  deriving DecidableEq, Repr

/-- What a description says of the service as a whole. -/
structure Metadata where
  /-- The name of the wire protocol; empty when none is declared. -/
  protocol : String
  serviceId : Option String
  apiVersion : Option String
  deriving DecidableEq, Repr

/-- Nothing said. -/
def Metadata.none : Metadata := ⟨"", .none, .none⟩

end WireBody.Service
