import WireBody.Compile.Error
import WireBody.Program.Basic
import WireBody.Service.Validity

/-!
# The steps that write a member

Each member that travels in the body is written by one step.  Its shape decides which: a text or
bytes become an element or an attribute, a truth value an element, a structure an element that its
routine fills, and a list a step for each item.  An optional member is written only if it is there;
a list is always written, since an absent one has no items.

Main definitions: `stepFor` is the step of a value of a shape, and `routineOf` the routine of a
structure.
-/

set_option autoImplicit false

namespace WireBody.Compile

open WireBody.Program
open WireBody.Service

/-! ## Names -/

/-- The attribute that declares a namespace: `xmlns`, or `xmlns:a` under an abbreviation `a`. -/
def declarationOf (n : XmlNamespace) : NamespaceDeclaration :=
  ⟨match n.nsPrefix with
    | some p => if p.isEmpty then "xmlns" else "xmlns:" ++ p
    | none => "xmlns",
   n.uri⟩

/-- The namespace declared where a member's value is a structure: its own, or else the shape's. -/
def namespaceFor (m : Member) (s : Shape) : Option NamespaceDeclaration :=
  (m.xmlNamespace.or s.xmlNamespace).map declarationOf

/-! ## Steps -/

/-- The shape of a name. -/
def shapeOf (g : Graph) (name : String) : Except CompileError Shape :=
  match g.shape name with
  | .ok s => .ok s
  | .error e => .error (.graph e)

/-- The step for a text or bytes. -/
def textStep (m : Member) (source : Source) : Op :=
  if m.asAttribute then .attr m.tag source else .element m.tag source

/-- The step for a scalar; only texts, bytes and truth values have one. -/
def scalarStep (m : Member) (s : Shape) (source : Source) : Scalar → Except CompileError Op
  | .string | .blob => .ok (textStep m source)
  | .boolean =>
    if m.asAttribute then .error (.booleanAttribute m.label) else .ok (.boolean m.tag source)
  | .integer | .long | .float | .double | .timestamp =>
    .error (.unsupportedType s.name s.kind.name)

/-- The step for a value of shape `s` that member `m` stands for, through at most `bound` lists
inside one another.  The items of a flattened list are written as the member itself, those of any
other list as the list's own member inside an element of the member's name. -/
def stepFor (g : Graph) : Nat → Member → Shape → Source → Except CompileError Op
  | bound, m, s, source =>
    match s.kind with
    | .struct _ => .ok (.struct m.tag (namespaceFor m s) s.name source)
    | .map _ _ _ => .error (.unsupportedMap s.name)
    | .scalar k => scalarStep m s source k
    | .list item flattened =>
      match shapeOf g item.target with
      | .error e => .error e
      | .ok element =>
        match bound with
        | 0 => .error (.graph (.recursiveList s.name))
        | bound + 1 =>
          if flattened then
            (stepFor g bound m element .item).map fun op => .forEach none source [op]
          else
            (stepFor g bound item element .item).map fun op => .forEach (some m.tag) source [op]

/-- Whether a member is written whether or not it is there. -/
def isUnconditional (m : Member) (s : Shape) : Bool :=
  m.required ||
    match s.kind with
    | .list _ _ | .map _ _ _ => true
    | .struct _ | .scalar _ => false

/-- The step for a member of a structure. -/
def memberStep (g : Graph) (m : Member) : Except CompileError Op :=
  match shapeOf g m.target with
  | .error e => .error e
  | .ok s =>
    if isUnconditional m s then stepFor g g.listBound m s (.field m.label)
    else (stepFor g g.listBound m s .present).map fun op => .ifPresent m.label [op]

/-! ## Routines -/

/-- The steps for some members of a structure. -/
def memberSteps (g : Graph) (owner : String) (members : List Member) :
    Except CompileError (List Op) :=
  members.mapM fun m => (memberStep g m).mapError (.inMember owner m.label)

/-- The routine of a structure: a step for each member that travels in the body. -/
def routineOf (g : Graph) (name : String) : Except CompileError Routine :=
  match shapeOf g name with
  | .error e => .error e
  | .ok s =>
    match s.kind with
    | .struct f => (memberSteps g s.name f.bodyMembers).map fun ops => ⟨s.name, ops⟩
    | _ => .error (.notAStructure s.name s.kind.name)

/-- Only shapes of the graph have a routine. -/
theorem contains_of_routineOf {g : Graph} {name : String} {r : Routine}
    (h : routineOf g name = .ok r) : ∃ s, g.shapes.get? name = some s := by
  unfold routineOf shapeOf at h
  split at h
  · cases h
  · rename_i s found
    split at found
    · rename_i s' found'
      exact ⟨s', Graph.shape_eq_ok_iff.1 found'⟩
    · cases found

end WireBody.Compile
