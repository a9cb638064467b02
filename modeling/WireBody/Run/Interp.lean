import WireBody.Run.Scope
import WireBody.Xml.Writer

/-!
# Running programs

A run turns a request into a body.  The steps of a routine add attributes and children to the place
they fill, in order, and the first step that fails decides the error.

Main definitions: `runOps` is what some steps write, `Program.run` the body of a request, and
`Body.bytes` what is sent of it.
-/

set_option autoImplicit false

namespace WireBody

namespace Run

open WireBody.Program
open WireBody.Request
open WireBody.Xml

/-! ## What steps write -/

/-- What is filled: the document, which holds elements alone, or an element. -/
inductive Place where
  | document
  | element
  deriving DecidableEq, Repr

/-- What was written to a place: attributes in the order in which they were set, and children. -/
structure Content where
  attributes : List (String × String)
  children : Forest

namespace Content

/-- Nothing. -/
def empty : Content := ⟨[], []⟩

/-- A child alone. -/
def child (n : Node) : Content := ⟨[], [n]⟩

/-- One thing and then another. -/
def append (c d : Content) : Content := ⟨c.attributes ++ d.attributes, c.children ++ d.children⟩

instance : Append Content := ⟨append⟩

@[simp] theorem attributes_append (c d : Content) :
    (c ++ d).attributes = c.attributes ++ d.attributes := rfl

@[simp] theorem children_append (c d : Content) :
    (c ++ d).children = c.children ++ d.children := rfl

@[simp] theorem empty_append (c : Content) : empty ++ c = c := rfl

@[simp] theorem append_empty (c : Content) : c ++ empty = c :=
  congr (congrArg Content.mk (List.append_nil c.attributes)) (List.append_nil c.children)

theorem append_assoc (c d e : Content) : c ++ d ++ e = c ++ (d ++ e) :=
  show (⟨_, _⟩ : Content) = ⟨_, _⟩ from
    congr (congrArg Content.mk (List.append_assoc c.attributes d.attributes e.attributes))
      (List.append_assoc c.children d.children e.children)

end Content

/-- Set an attribute of a place. -/
def Place.setAttribute (name value : String) : Place → Except RunError Content
  | .document => .error (.attributeOnDocument name)
  | .element => .ok ⟨[(name, value)], []⟩

/-- The element with some content.  Its namespace is its first attribute, and an attribute that is
set again keeps its place and takes the later value. -/
def elementOf (tag : String) (declared : Option NamespaceDeclaration) (content : Content) : Node :=
  .element tag (collect ((declared.toList.map fun n => (n.name, n.uri)) ++ content.attributes))
    content.children

/-! ## Values -/

/-- The text of a value that is written as text. -/
def textOf (name : String) : Value → Except RunError String
  | .text s => .ok s
  | .blob bytes =>
    match String.fromUTF8? bytes with
    | some s => .ok s
    | none => .error (.invalidUtf8 name)
  | v => .error (.typeMismatch name .text v.kind)

/-- The text of a truth value. -/
def booleanText (b : Bool) : String := if b then "true" else "false"

/-- The text of a value that has to be a truth value. -/
def booleanOf (name : String) : Value → Except RunError String
  | .boolean b => .ok (booleanText b)
  | v => .error (.typeMismatch name .boolean v.kind)

/-- The bytes of a body that is a field as it is. -/
def rawBytes (name : String) : Option Value → Except RunError ByteArray
  | none => .ok .empty
  | some (.blob bytes) => .ok bytes
  | some (.text s) => .ok s.toUTF8
  | some v => .error (.typeMismatch name .blob v.kind)

/-! ## Steps -/

/-- What a list is called in messages: its element, if it has one. -/
def listName (wrapper : Option String) : String := wrapper.getD "list"

mutual

/-- What some steps write, one after the other. -/
def runOps (p : Program) (place : Place) (scope : Scope) : List Op → Except RunError Content
  | [] => .ok .empty
  | op :: rest => do
    let first ← runOp p place scope op
    let others ← runOps p place scope rest
    return first ++ others
termination_by ops => (sizeOf scope.fields, sizeOf ops, 0)

/-- What a step writes. -/
def runOp (p : Program) (place : Place) (scope : Scope) : Op → Except RunError Content
  | .ifPresent field body =>
    match found : scope.fields.lookup field with
    | none => .ok .empty
    | some v => runOps p place (scope.withPresent v (sizeOf_lt_of_lookup found)) body
  | .element tag source => do
    let text ← textOf tag (← scope.require source tag)
    return .child (.ofText tag text)
  | .attr name source => do
    let text ← textOf name (← scope.require source name)
    place.setAttribute name text
  | .boolean tag source => do
    let text ← booleanOf tag (← scope.require source tag)
    return .child (.ofText tag text)
  | .struct tag declared shape source =>
    match required : scope.requireFields source tag with
    | .error e => .error e
    | .ok fields =>
      have := Scope.requireFields_lt required
      match p.routine? shape with
      | none => .error (.missingRoutine shape)
      | some routine => do
        let content ← runOps p .element (.ofFields fields) routine.ops
        return .child (elementOf tag declared content)
  | .forEach wrapper source body =>
    match listed : scope.items source (listName wrapper) with
    | .error e => .error e
    | .ok items =>
      match wrapper with
      | some tag => do
        let content ← runItems p .element scope body items (Scope.items_lt listed)
        return .child (elementOf tag none content)
      | none => runItems p place scope body items (Scope.items_lt listed)
termination_by op => (sizeOf scope.fields, sizeOf op, 0)

/-- What some steps write for each item of a list. -/
def runItems (p : Program) (place : Place) (scope : Scope) (body : List Op) (items : List Value)
    (below : ∀ v ∈ items, sizeOf v < sizeOf scope.fields) : Except RunError Content :=
  match items with
  | [] => .ok .empty
  | v :: rest => do
    let first ← runOps p place (scope.withItem v (below v List.mem_cons_self)) body
    let others ← runItems p place scope body rest fun w h => below w (List.mem_cons_of_mem v h)
    return first ++ others
termination_by (sizeOf scope.fields, sizeOf body, items.length + 1)
decreasing_by
  · exact Prod.Lex.right _ (Prod.Lex.right _ (Nat.succ_pos _))
  · exact Prod.Lex.right _ (Prod.Lex.right _ (Nat.lt_succ_self _))

end

/-- What the routine of a structure writes for a structure of these fields. -/
def runRoutine (p : Program) (place : Place) (shape : String) (fields : List (String × Value)) :
    Except RunError Content :=
  match p.routine? shape with
  | none => .error (.missingRoutine shape)
  | some routine => runOps p place (.ofFields fields) routine.ops

/-! ## Bodies -/

/-- A request body. -/
inductive Body where
  /-- Bytes as they are. -/
  | raw (bytes : ByteArray)
  /-- A document with these elements. -/
  | document (forest : Forest)

/-- The bytes of a body, its document declared as such or not. -/
def Body.bytes (declared : Bool) : Body → ByteArray
  | .raw bytes => bytes
  | .document forest => (writeDocument declared forest).toUTF8

/-- The fields of a request; no request has none. -/
def requestFields (operation : String) : Option Value → Except RunError (List (String × Value))
  | none => .ok []
  | some v =>
    match v.fields? with
    | some fields => .ok fields
    | none => .error (.typeMismatch operation .struct v.kind)

/-- The fields that make up the document: those of the request, or those of its payload, which may
be absent. -/
def rootFields (payload : Option String) (fields : List (String × Value)) :
    Except RunError (Option (List (String × Value))) :=
  match payload with
  | none => .ok (some fields)
  | some field =>
    match fields.lookup field with
    | none => .ok none
    | some v =>
      match v.fields? with
      | some fields => .ok (some fields)
      | none => .error (.typeMismatch field .struct v.kind)

end Run

open WireBody.Request
open WireBody.Run

/-- The body of a request. -/
def Program.run (p : Program) (request : Option Value) : Except RunError Body := do
  let fields ← requestFields p.operation request
  match p.plan with
  | .empty => return .document []
  | .raw field =>
    let bytes ← rawBytes field (fields.lookup field)
    return .raw bytes
  | .document root payload =>
    match ← rootFields payload fields with
    | none => return .document []
    | some fields =>
      let content ← runRoutine p .document root fields
      return .document content.children

/-- The bytes of the body of a request. -/
def Program.serialize (p : Program) (declared : Bool) (request : Option Value) :
    Except RunError ByteArray :=
  (p.run request).map (Body.bytes declared)

end WireBody
