import WireBody.Proofs.Outcome
import WireBody.Proofs.Request.Parts
import WireBody.Proofs.Run.Pieces
import WireBody.Proofs.Service.Carries

/-!
# Bodies straight from the description

A body can be written without a program: go through the members of a structure and the fields of
the request side by side, and write each field by the shape that its member points to.  Nothing is
worked out in advance, nothing is shared between two places where a structure occurs, and nothing
but the value at hand is in view.  The pieces that are written, such as texts and elements, are
those of any body, and are described on their own: `textOf_eq_ok_iff`, `booleanOf_eq_ok_iff`,
`namespaceFor_eq_some_iff` and `elementOf_eq` say what they are.

Main definitions: `writeValue` writes a value of a shape, `writeMembers` the members of a structure,
and `body` the body of a request.
-/

set_option autoImplicit false

namespace WireBody.Direct

open WireBody.Compile
open WireBody.Request
open WireBody.Run
open WireBody.Service
open WireBody.Xml

/-! ## Members and values -/

/-- A text: an attribute of the element around if the member says so, else an element. -/
def writeText (m : Member) (text : String) : Content :=
  if m.asAttribute then ⟨[(m.tag, text)], []⟩ else .child (.ofText m.tag text)

/-- A member whose field is absent.  A list is written without items, and any other member that is
required cannot be done without. -/
def writeAbsent (m : Member) (s : Shape) : Except RunError Content :=
  match s.kind with
  | .list _ true => .ok .empty
  | .list _ false => .ok (.child (elementOf m.tag none .empty))
  | _ => if m.required then .error (.missingValue m.tag) else .ok .empty

mutual

/-- The members of a structure of these fields, in the order of their declaration. -/
def writeMembers (g : Graph) (fields : List (String × Value)) :
    List Member → Except RunError Content
  | [] => .ok .empty
  | m :: rest => do
    let first ← writeMember g fields m
    let others ← writeMembers g fields rest
    return first ++ others
termination_by members => (sizeOf fields, members.length + 1)

/-- A member of a structure of these fields. -/
def writeMember (g : Graph) (fields : List (String × Value)) (m : Member) :
    Except RunError Content :=
  match g.shapes.get? m.target with
  | none => .ok .empty
  | some s =>
    match found : fields.lookup m.label with
    | none => writeAbsent m s
    | some v =>
      have := sizeOf_lt_of_lookup found
      writeValue g m s v
termination_by (sizeOf fields, 0)

/-- A value of shape `s` that member `m` stands for.  The items of a flattened list are written as
the member itself, those of any other list as the list's own member inside one element. -/
def writeValue (g : Graph) (m : Member) (s : Shape) (v : Value) : Except RunError Content :=
  match s.kind with
  | .struct f =>
    match v with
    | .struct fields => do
      let content ← writeMembers g fields f.bodyMembers
      return .child (elementOf m.tag (namespaceFor m s) content)
    | v => .error (.typeMismatch m.tag .struct v.kind)
  | .list item flattened =>
    match v with
    | .list items =>
      match g.shapes.get? item.target with
      | none => .ok .empty
      | some element =>
        if flattened then writeItems g m element items
        else do
          let content ← writeItems g item element items
          return .child (elementOf m.tag none content)
    | v => .error (.typeMismatch (if flattened then "list" else m.tag) .list v.kind)
  | .scalar .string | .scalar .blob => (textOf m.tag v).map (writeText m)
  | .scalar .boolean => (booleanOf m.tag v).map fun text => .child (.ofText m.tag text)
  | _ => .ok .empty
termination_by (sizeOf v, 0)

/-- The items of a list, one after the other. -/
def writeItems (g : Graph) (m : Member) (s : Shape) : List Value → Except RunError Content
  | [] => .ok .empty
  | v :: rest => do
    let first ← writeValue g m s v
    let others ← writeItems g m s rest
    return first ++ others
termination_by items => (sizeOf items, 0)

end

/-! ## What each kind of value writes -/

section

variable {g : Graph} {m : Member} {s : Shape} {fields : List (String × Value)}

@[simp] theorem writeMembers_nil : writeMembers g fields [] = .ok .empty := by
  rw [writeMembers]

theorem writeMembers_cons (rest : List Member) :
    writeMembers g fields (m :: rest) = (do
      let first ← writeMember g fields m
      let others ← writeMembers g fields rest
      return first ++ others) := by
  rw [writeMembers]

theorem writeMember_of_none (target : g.shapes.get? m.target = some s)
    (absent : fields.lookup m.label = none) : writeMember g fields m = writeAbsent m s := by
  rw [writeMember, target]
  simp only
  split
  · rfl
  · rename_i v found
    rw [absent] at found
    cases found

theorem writeMember_of_some {v : Value} (target : g.shapes.get? m.target = some s)
    (found : fields.lookup m.label = some v) : writeMember g fields m = writeValue g m s v := by
  rw [writeMember, target]
  simp only
  split
  · rename_i absent
    rw [found] at absent
    cases absent
  · rename_i w found'
    cases found.symm.trans found'
    rfl

@[simp] theorem writeItems_nil : writeItems g m s [] = .ok .empty := by
  rw [writeItems]

theorem writeItems_cons (v : Value) (rest : List Value) :
    writeItems g m s (v :: rest) = (do
      let first ← writeValue g m s v
      let others ← writeItems g m s rest
      return first ++ others) := by
  rw [writeItems]

theorem writeValue_struct {f : Fields} (isStruct : s.kind = .struct f) :
    writeValue g m s (.struct fields) = (do
      let content ← writeMembers g fields f.bodyMembers
      return .child (elementOf m.tag (namespaceFor m s) content)) := by
  rw [writeValue]
  simp only [isStruct]

theorem writeValue_notStruct {f : Fields} {v : Value} (isStruct : s.kind = .struct f)
    (other : v.fields? = none) :
    writeValue g m s v = .error (.typeMismatch m.tag .struct v.kind) := by
  rw [writeValue]
  simp only [isStruct]
  split
  · cases other
  · rfl

theorem writeValue_flattened {item : Member} {element : Shape} {items : List Value}
    (isList : s.kind = .list item true) (found : g.shapes.get? item.target = some element) :
    writeValue g m s (.list items) = writeItems g m element items := by
  rw [writeValue]
  simp only [isList, found, ↓reduceIte]

theorem writeValue_wrapped {item : Member} {element : Shape} {items : List Value}
    (isList : s.kind = .list item false) (found : g.shapes.get? item.target = some element) :
    writeValue g m s (.list items) = (do
      let content ← writeItems g item element items
      return .child (elementOf m.tag none content)) := by
  rw [writeValue]
  simp only [isList, found, Bool.false_eq_true, ↓reduceIte]

theorem writeValue_notList {item : Member} {flattened : Bool} {v : Value}
    (isList : s.kind = .list item flattened) (other : v.kind ≠ .list) :
    writeValue g m s v =
      .error (.typeMismatch (if flattened then "list" else m.tag) .list v.kind) := by
  rw [writeValue]
  simp only [isList]
  split
  · exact absurd rfl other
  · rfl

theorem writeValue_text {k : Scalar} (isScalar : s.kind = .scalar k) (isText : k.isText = true)
    (v : Value) : writeValue g m s v = (textOf m.tag v).map (writeText m) := by
  rw [writeValue]
  cases k <;> simp_all [Scalar.isText]

theorem writeValue_boolean (isBoolean : s.kind = .scalar .boolean) (v : Value) :
    writeValue g m s v = (booleanOf m.tag v).map fun text => .child (.ofText m.tag text) := by
  rw [writeValue]
  simp only [isBoolean]

end

/-! ## Values that were written -/

section

variable {g : Graph} {m : Member} {s : Shape} {v : Value} {c : Content}

/-- Members are written when the first of them and the others are. -/
theorem writeMembers_cons_eq_ok_iff {fields : List (String × Value)} {rest : List Member} :
    writeMembers g fields (m :: rest) = .ok c ↔
      ∃ first others, writeMember g fields m = .ok first ∧
        writeMembers g fields rest = .ok others ∧ c = first ++ others := by
  rw [writeMembers_cons]
  exact both_eq_ok_iff

/-- Items are written when the first of them and the others are. -/
theorem writeItems_cons_eq_ok_iff {rest : List Value} :
    writeItems g m s (v :: rest) = .ok c ↔
      ∃ first others, writeValue g m s v = .ok first ∧ writeItems g m s rest = .ok others ∧
        c = first ++ others := by
  rw [writeItems_cons]
  exact both_eq_ok_iff

theorem struct_of_writeValue {f : Fields} (isStruct : s.kind = .struct f)
    (written : writeValue g m s v = .ok c) :
    ∃ fields content, v = .struct fields ∧ writeMembers g fields f.bodyMembers = .ok content ∧
      c = .child (elementOf m.tag (namespaceFor m s) content) := by
  cases h : v.fields? with
  | none =>
    rw [writeValue_notStruct isStruct h] at written
    cases written
  | some fields =>
    obtain rfl := Value.fields?_eq_some_iff.1 h
    rw [writeValue_struct isStruct] at written
    obtain ⟨content, below, written⟩ := bind_eq_ok_iff.1 written
    cases written
    exact ⟨fields, content, rfl, below, rfl⟩

/-- What is written of a list is written of its items: this is all if it is flattened, and else
stands in one element. -/
theorem list_of_writeValue {item : Member} {flattened : Bool} {element : Shape}
    (isList : s.kind = .list item flattened) (found : g.shapes.get? item.target = some element)
    (written : writeValue g m s v = .ok c) :
    ∃ items content, v = .list items ∧
      writeItems g (itemMember m item flattened) element items = .ok content ∧
      c = if flattened then content else .child (elementOf m.tag none content) := by
  by_cases h : v.kind = .list
  · obtain ⟨items, rfl⟩ := Value.kind_eq_list_iff.1 h
    cases flattened with
    | true =>
      rw [writeValue_flattened isList found] at written
      exact ⟨items, c, rfl, written, rfl⟩
    | false =>
      rw [writeValue_wrapped isList found] at written
      obtain ⟨content, below, written⟩ := bind_eq_ok_iff.1 written
      cases written
      exact ⟨items, content, rfl, below, rfl⟩
  · rw [writeValue_notList isList h] at written
    cases written

theorem text_of_writeValue {k : Scalar} (isScalar : s.kind = .scalar k) (isText : k.isText = true)
    (written : writeValue g m s v = .ok c) :
    ∃ text, textOf m.tag v = .ok text ∧ c = writeText m text := by
  rw [writeValue_text isScalar isText] at written
  obtain ⟨text, read, rfl⟩ := map_eq_ok_iff.1 written
  exact ⟨text, read, rfl⟩

theorem boolean_of_writeValue (isBoolean : s.kind = .scalar .boolean)
    (written : writeValue g m s v = .ok c) :
    ∃ b, v = .boolean b ∧ c = .child (.ofText m.tag (booleanText b)) := by
  rw [writeValue_boolean isBoolean] at written
  obtain ⟨text, read, rfl⟩ := map_eq_ok_iff.1 written
  cases v with
  | boolean b =>
    cases read
    exact ⟨b, rfl, rfl⟩
  | _ => cases read

end

/-! ## Bodies -/

/-- The document with the members of a structure, whose fields are those of the request or of its
payload.  A structure that has nothing to write makes no document. -/
def documentBody (g : Graph) (root : Fields) (payload : Option String)
    (fields : List (String × Value)) : Except RunError Body :=
  if root.bodyMembers.isEmpty then .ok (.document [])
  else do
    match ← rootFields payload fields with
    | none => return .document []
    | some present =>
      let content ← writeMembers g present root.bodyMembers
      return .document content.children

/-- A field as it is. -/
def rawBody (field : String) (fields : List (String × Value)) : Except RunError Body :=
  (rawBytes field (fields.lookup field)).map .raw

/-- A body that is the member `m` of the input: sent as it is if it is streamed, a text or bytes,
and a document if it is a structure. -/
def payloadBody (g : Graph) (m : Member) (fields : List (String × Value)) :
    Except RunError Body :=
  if m.streaming then rawBody m.label fields
  else
    match g.shapes.get? m.target with
    | none => .ok (.document [])
    | some s =>
      if s.streaming then rawBody m.label fields
      else
        match s.kind with
        | .struct f => documentBody g f (some m.label) fields
        | .scalar .string | .scalar .blob => rawBody m.label fields
        | _ => .ok (.document [])

/-- The body of a request. -/
def body (g : Graph) (o : Operation) (request : Option Value) : Except RunError Body := do
  let fields ← requestFields o.name request
  match (o.input.bind g.shapes.get?).bind Shape.fields? with
  | none => return .document []
  | some input =>
    match input.payloadMember? with
    | none => documentBody g input none fields
    | some m => payloadBody g m fields

/-- The bytes of the body of a request. -/
def serialize (g : Graph) (o : Operation) (declared : Bool) (request : Option Value) :
    Except RunError ByteArray :=
  (body g o request).map (Body.bytes declared)

/-! ## What a body is made of -/

theorem requestFields_eq_ok_iff {operation : String} {request : Option Value}
    {fields : List (String × Value)} :
    requestFields operation request = .ok fields ↔
      request.getD (.struct []) = .struct fields := by
  cases request with
  | none => simp [requestFields]
  | some v => cases v <;> simp [requestFields, Value.fields?]

/-- The value that a document is made of: the request, or a field of it. -/
def rootValue (payload : Option String) (fields : List (String × Value)) : Option Value :=
  match payload with
  | none => some (.struct fields)
  | some field => fields.lookup field

theorem rootFields_eq (payload : Option String) (fields : List (String × Value)) :
    rootFields payload fields =
      match rootValue payload fields with
      | none => .ok none
      | some v =>
        match v.fields? with
        | some present => .ok (some present)
        | none => .error (.typeMismatch (payload.getD "") .struct v.kind) := by
  cases payload with
  | none => rfl
  | some field =>
    rw [rootFields, rootValue]
    cases fields.lookup field with
    | none => rfl
    | some v => cases v <;> rfl

/-- A document with elements is that of a structure. -/
theorem content_of_documentBody {g : Graph} {root : Fields} {payload : Option String}
    {fields : List (String × Value)} {forest : Forest} (some : forest ≠ [])
    (made : documentBody g root payload fields = .ok (.document forest)) :
    ∃ present content, rootValue payload fields = Option.some (.struct present) ∧
      writeMembers g present root.bodyMembers = .ok content ∧ content.children = forest := by
  unfold documentBody at made
  split at made
  · cases made
    exact absurd rfl some
  · obtain ⟨found, root, made⟩ := bind_eq_ok_iff.1 made
    rw [rootFields_eq] at root
    cases value : rootValue payload fields with
    | none =>
      rw [value] at root
      cases root
      cases made
      exact absurd rfl some
    | some v =>
      rw [value] at root
      simp only at root
      split at root
      · rename_i present isStruct
        cases root
        obtain ⟨content, written, made⟩ := bind_eq_ok_iff.1 made
        cases made
        obtain rfl := Value.fields?_eq_some_iff.1 isStruct
        exact ⟨present, content, rfl, written, rfl⟩
      · cases root

end WireBody.Direct
