import WireBody.Proofs.Direct.Failure
import WireBody.Proofs.Service.Sound

/-!
# What a failure names

A run stops at one value, or where one is missing, and the error names it.  Conversely whatever
writing comes to and cannot write is what stops it, so that the error of a run and its culprit
determine each other.  The name is that of the element or attribute that would have been written, or
of the field that is the body.  There is one exception: a flattened list has no element, and if its
value is no list then the error calls it `list`, whatever the name of its member.

Main definitions: `Named` are the members that an error may speak of, and `Culprit` is what is at
fault with its name.  Main statements: `run_eq_error_iff` and `serialize_eq_error_iff`.
-/

set_option autoImplicit false

namespace WireBody.Run

/-- The name that an error gives to what is at fault. -/
def RunError.name? : RunError → Option String
  | .missingValue n | .typeMismatch n _ _ | .invalidUtf8 n => some n
  | .missingRoutine _ | .attributeOnDocument _ => none

end WireBody.Run

namespace WireBody.Direct

open WireBody.Compile
open WireBody.Program
open WireBody.Request
open WireBody.Run
open WireBody.Service
open WireBody.Xml

variable {g : Graph}

/-! ## What cannot be written stops writing -/

theorem NextMember.stops {fields : List (String × Value)} {members : List Member} {m : Member}
    {e : RunError} (next : NextMember g fields members m)
    (failed : writeMember g fields m = .error e) : writeMembers g fields members = .error e := by
  obtain ⟨before, after, c, rfl, written⟩ := next
  induction before generalizing c with
  | nil => rw [List.nil_append, writeMembers_cons, failed, error_bind]
  | cons m' before ih =>
    obtain ⟨first, others, firstWritten, othersWritten, -⟩ := writeMembers_cons_eq_ok_iff.1 written
    rw [List.cons_append, writeMembers_cons, firstWritten, ok_bind, ih others othersWritten,
      error_bind]

theorem NextItem.stops {m : Member} {s : Shape} {items : List Value} {v : Value} {e : RunError}
    (next : NextItem g m s items v) (failed : writeValue g m s v = .error e) :
    writeItems g m s items = .error e := by
  obtain ⟨before, after, c, rfl, written⟩ := next
  induction before generalizing c with
  | nil => rw [List.nil_append, writeItems_cons, failed, error_bind]
  | cons w before ih =>
    obtain ⟨first, others, firstWritten, othersWritten, -⟩ := writeItems_cons_eq_ok_iff.1 written
    rw [List.cons_append, writeItems_cons, firstWritten, ok_bind, ih others othersWritten,
      error_bind]

/-- A list stops where its items do. -/
theorem writeValue_of_items {m item : Member} {s element : Shape} {flattened : Bool}
    {items : List Value} {e : RunError} (isList : s.kind = .list item flattened)
    (found : g.shapes.get? item.target = some element)
    (failed : writeItems g (itemMember m item flattened) element items = .error e) :
    writeValue g m s (.list items) = .error e := by
  cases flattened with
  | true =>
    rw [writeValue_flattened isList found]
    exact failed
  | false =>
    have failed : writeItems g item element items = .error e := failed
    rw [writeValue_wrapped isList found, failed, error_bind]

section

variable {root : Fields} {top : List (String × Value)} {e : RunError}

mutual

/-- If writing comes to a structure that stops, then the whole stops there. -/
theorem Begun.stops {f : Fields} {fields : List (String × Value)} :
    Begun g root top f fields → writeMembers g fields f.bodyMembers = .error e →
      writeMembers g top root.bodyMembers = .error e
  | .root, failed => failed
  | .nested reached isStruct, failed => by
    refine reached.stops ?_
    rw [writeValue_struct isStruct, failed, error_bind]

/-- If writing comes to a value that stops, then the whole stops there. -/
theorem Reached.stops {m : Member} {s : Shape} {v : Value} :
    Reached g root top m s v → writeValue g m s v = .error e →
      writeMembers g top root.bodyMembers = .error e
  | .field begun next target found, failed => by
    refine begun.stops (next.stops ?_)
    rwa [writeMember_of_some target found]
  | .item reached isList found next, failed =>
    reached.stops (writeValue_of_items isList found (next.stops failed))

end

/-- A value that is not of its shape is not written. -/
theorem Unfit.stops {m : Member} {s : Shape} {v : Value} (unfit : Unfit m s v e) :
    writeValue g m s v = .error e := by
  cases unfit with
  | struct isStruct other => exact writeValue_notStruct isStruct (Value.fields?_eq_none_iff.2 other)
  | list isList other => exact writeValue_notList isList other
  | text isScalar isText notText notBlob =>
    rw [writeValue_text isScalar isText, map_eq_error_iff]
    exact textOf_eq_error_iff.2 (.inr ⟨notText, notBlob, rfl⟩)
  | utf8 isScalar isText isBlob invalid =>
    rw [writeValue_text isScalar isText, map_eq_error_iff]
    exact textOf_eq_error_iff.2 (.inl ⟨_, isBlob, invalid, rfl⟩)
  | boolean isBoolean other =>
    rw [writeValue_boolean isBoolean, map_eq_error_iff]
    exact booleanOf_eq_error_iff.2 ⟨other, rfl⟩

/-- A fault stops the document. -/
theorem Fault.stops (fault : Fault g root top e) : writeMembers g top root.bodyMembers = .error e := by
  cases fault with
  | @missing f fields m s begun next target absent required single =>
    refine begun.stops (next.stops ?_)
    rw [writeMember_of_none target absent]
    exact writeAbsent_eq_error_iff.2 ⟨required, single, rfl⟩
  | unfit reached unfit => exact reached.stops unfit.stops

end

/-! ## What is at fault in a request -/

variable {o : Operation} {p : Program} {request : Option Value} {e : RunError}

/-- A fault of a request stops the run of a compiled program. -/
theorem RequestFault.stops (compiled : Compile.program g o = .ok p)
    (fault : RequestFault g p request e) : p.run request = .error e := by
  cases fault with
  | @request v given other =>
    rw [Program.run, given, requestFields, Value.fields?_eq_none_iff.2 other]
    rfl
  | @raw field fields v plan given found notText notBlob =>
    rw [Program.run, requestFields_eq_ok_iff.2 given, ok_bind, plan]
    simp only [found]
    cases v with
    | text _ => exact absurd rfl notText
    | blob _ => exact absurd rfl notBlob
    | struct _ | list _ | boolean _ => rfl
  | @payload root field fields v plan given found other =>
    rw [Program.run, requestFields_eq_ok_iff.2 given, ok_bind, plan]
    simp only [rootFields, found, Value.fields?_eq_none_iff.2 other]
    rfl
  | document plan found isStruct given value fault =>
    rw [run_of_rootIs compiled (.document plan found isStruct given value), map_eq_error_iff]
    exact fault.stops

/-- The run of a compiled program fails with an error exactly if the request has the fault that the
error reports.  There is one such fault at most, since a run has one outcome. -/
theorem run_eq_error_iff (compiled : Compile.program g o = .ok p) :
    p.run request = .error e ↔ RequestFault g p request e :=
  ⟨requestFault_of_run compiled, RequestFault.stops compiled⟩

/-! ## Names -/

/-- The members that an error may speak of: the body members of the structures that writing comes
to, and the members of the lists that have an element of their own. -/
inductive Named (g : Graph) (root : Fields) (top : List (String × Value)) : Member → Prop
  | field {f : Fields} {fields : List (String × Value)} {m : Member} :
      Begun g root top f fields → m ∈ f.bodyMembers → Named g root top m
  | item {m item : Member} {s : Shape} {items : List Value} :
      Reached g root top m s (.list items) → s.kind = .list item false → Named g root top item

/-- Whatever writing comes to stands for one of them. -/
theorem named_of_reached {root : Fields} {top : List (String × Value)} {m : Member} {s : Shape}
    {v : Value} : Reached g root top m s v → Named g root top m
  | .field begun next _ _ => .field begun next.mem
  | @Reached.item _ _ _ _ _ _ _ flattened _ _ reached isList _ _ => by
    cases flattened with
    | true => exact named_of_reached reached
    | false => exact .item reached isList

/-- The member of this label is the body of an operation. -/
def PayloadField (g : Graph) (o : Operation) (field : String) : Prop :=
  ∃ input s f m, o.input = some input ∧ g.shapes.get? input = some s ∧ s.kind = .struct f ∧
    f.payloadMember? = some m ∧ m.label = field

/-- What makes a run on a structure of these fields fail, with its name and the error. -/
inductive Culprit (g : Graph) (o : Operation) (p : Program) (fields : List (String × Value)) :
    String → RunError → Prop
  /-- What is sent as it is is neither text nor bytes. -/
  | raw {field : String} {v : Value} :
      p.plan = .raw field → PayloadField g o field → fields.lookup field = some v →
      v.kind ≠ .text → v.kind ≠ .blob →
      Culprit g o p fields field (.typeMismatch field .blob v.kind)
  /-- The field that makes up the document is no structure. -/
  | payload {root field : String} {v : Value} :
      p.plan = .document root (some field) → PayloadField g o field →
      fields.lookup field = some v → v.kind ≠ .struct →
      Culprit g o p fields field (.typeMismatch field .struct v.kind)
  /-- A structure that is written lacks the field of a member. -/
  | absent {root f : Fields} {top present : List (String × Value)} {m : Member} {s : Shape} :
      RootIs g p (some (.struct fields)) root top → Begun g root top f present →
      NextMember g present f.bodyMembers m → g.shapes.get? m.target = some s →
      present.lookup m.label = none → m.required = true → s.isList = false →
      Culprit g o p fields m.tag (.missingValue m.tag)
  /-- A value that stands for a member is not of its shape. -/
  | value {root : Fields} {top : List (String × Value)} {m : Member} {s : Shape} {v : Value}
      {e : RunError} :
      RootIs g p (some (.struct fields)) root top → Named g root top m → Reached g root top m s v →
      s.isFlattened = false → Unfit m s v e → Culprit g o p fields m.tag e
  /-- A value that stands for a flattened list is no list. -/
  | flattened {root : Fields} {top : List (String × Value)} {m item : Member} {s : Shape}
      {v : Value} :
      RootIs g p (some (.struct fields)) root top → Named g root top m → Reached g root top m s v →
      s.kind = .list item true → v.kind ≠ .list →
      Culprit g o p fields "list" (.typeMismatch "list" .list v.kind)

theorem payloadField_of_raw (compiled : Compile.program g o = .ok p) {field : String}
    (plan : p.plan = .raw field) : PayloadField g o field := by
  cases programOf_of_program compiled with
  | noInput _ => cases plan
  | input _ _ _ _ made => cases made <;> cases plan
  | raw given found isStruct declared _ =>
    cases plan
    exact ⟨_, _, _, _, given, found, isStruct, declared, rfl⟩
  | payload _ _ _ _ _ _ _ _ made => cases made <;> cases plan

theorem payloadField_of_document (compiled : Compile.program g o = .ok p) {root field : String}
    (plan : p.plan = .document root (some field)) : PayloadField g o field := by
  cases programOf_of_program compiled with
  | noInput _ => cases plan
  | input _ _ _ _ made => cases made <;> cases plan
  | raw _ _ _ _ _ => cases plan
  | payload given found isStruct declared _ _ _ _ made =>
    cases made with
    | nothing _ => cases plan
    | document _ _ _ _ _ =>
      cases plan
      exact ⟨_, _, _, _, given, found, isStruct, declared, rfl⟩

/-- A value that is not of its shape is called by the tag of its member, unless the shape is a
flattened list. -/
theorem name_of_unfit {m : Member} {s : Shape} {v : Value} (unfit : Unfit m s v e)
    (other : s.isFlattened = false) : e.name? = some m.tag := by
  cases unfit with
  | @list item flattened isList _ =>
    rw [Shape.isFlattened, isList] at other
    subst other
    rfl
  | struct _ _ | text _ _ _ _ | utf8 _ _ _ _ | boolean _ _ => rfl

theorem Culprit.name {fields : List (String × Value)} {n : String}
    (culprit : Culprit g o p fields n e) : e.name? = some n := by
  cases culprit with
  | value _ _ _ other unfit => exact name_of_unfit unfit other
  | raw _ _ _ _ _ | payload _ _ _ _ | absent _ _ _ _ _ _ _ | flattened _ _ _ _ _ => rfl

/-- A fault of the document is one of the request. -/
theorem requestFault_of_fault {root : Fields} {top : List (String × Value)}
    (rootIs : RootIs g p request root top) (fault : Fault g root top e) :
    RequestFault g p request e := by
  obtain ⟨plan, found, isStruct, given, value⟩ := rootIs
  exact .document plan found isStruct given value fault

theorem culprit_of_fault {fields top : List (String × Value)} {root : Fields}
    (rootIs : RootIs g p (some (.struct fields)) root top) (fault : Fault g root top e) :
    ∃ n, Culprit g o p fields n e := by
  cases fault with
  | missing begun next target absent required single =>
    exact ⟨_, .absent rootIs begun next target absent required single⟩
  | @unfit m s v _ reached unfit =>
    have named := named_of_reached reached
    cases flattened : s.isFlattened with
    | false => exact ⟨_, .value rootIs named reached flattened unfit⟩
    | true =>
      cases unfit with
      | @list item _ isList other =>
        rw [Shape.isFlattened, isList] at flattened
        subst flattened
        exact ⟨_, .flattened rootIs named reached isList other⟩
      | struct other _ | text other _ _ _ | utf8 other _ _ _ | boolean other _ =>
        rw [Shape.isFlattened, other] at flattened
        cases flattened

/-- The run of a compiled program on a structure fails exactly if there is a culprit, and the error
carries its name.  This is the field that is the body, or the tag of a body member or of a list's
member for its items: its own value cannot be written, or it has none, and all before it was
written.  Only a value for a flattened list has no name of its own and is called `list`. -/
theorem serialize_eq_error_iff (compiled : Compile.program g o = .ok p) (declared : Bool)
    (fields : List (String × Value)) (e : RunError) :
    p.serialize declared (some (.struct fields)) = .error e ↔
      ∃ n, e.name? = some n ∧ Culprit g o p fields n e := by
  rw [Program.serialize, map_eq_error_iff, run_eq_error_iff compiled]
  constructor
  · intro fault
    obtain ⟨n, culprit⟩ : ∃ n, Culprit g o p fields n e := by
      cases fault with
      | request given other =>
        cases given
        exact absurd rfl other
      | raw plan given found notText notBlob =>
        cases given
        exact ⟨_, .raw plan (payloadField_of_raw compiled plan) found notText notBlob⟩
      | payload plan given found other =>
        cases given
        exact ⟨_, .payload plan (payloadField_of_document compiled plan) found other⟩
      | document plan found isStruct given value fault =>
        exact culprit_of_fault (.document plan found isStruct given value) fault
    exact ⟨n, culprit.name, culprit⟩
  · rintro ⟨n, -, culprit⟩
    cases culprit with
    | raw plan _ found notText notBlob => exact .raw plan rfl found notText notBlob
    | payload plan _ found other => exact .payload plan rfl found other
    | absent rootIs begun next target absent required single =>
      exact requestFault_of_fault rootIs (.missing begun next target absent required single)
    | value rootIs _ reached _ unfit => exact requestFault_of_fault rootIs (.unfit reached unfit)
    | flattened rootIs _ reached isList other =>
      exact requestFault_of_fault rootIs (.unfit reached (.list isList other))

/-- The owner of a folder has to be a text. -/
theorem serialize_eq_error_iff_folder :
    Compile.program folderGraph putFolder = .ok folderProgram ∧
      folderProgram.serialize true (some (.struct [("Root", .struct [("Owner", .boolean true)])])) =
        .error (.typeMismatch "Owner" .text .boolean) ∧
      Culprit folderGraph putFolder folderProgram
        [("Root", .struct [("Owner", .boolean true)])] "Owner"
        (.typeMismatch "Owner" .text .boolean) := by
  have failed :
      folderProgram.serialize true (some (.struct [("Root", .struct [("Owner", .boolean true)])])) =
        .error (.typeMismatch "Owner" .text .boolean) := by cbv
  obtain ⟨n, name, culprit⟩ := (serialize_eq_error_iff program_putFolder _ _ _).1 failed
  cases name
  exact ⟨program_putFolder, failed, culprit⟩

/-- If the folders in a folder are given as a text, then the error names `list`, and no member of the
graph has this name. -/
theorem list_not_named :
    folderGraph.check = .ok () ∧ Compile.program folderGraph putFolder = .ok folderProgram ∧
    folderProgram.serialize false
        (some (.struct [("Root", .struct [("Owner", .text "x"), ("Inner", .text "y")])])) =
      .error (.typeMismatch "list" .list .text) ∧
    ∀ s ∈ folderGraph.shapes.values, ∀ m ∈ s.pointers, m.tag ≠ "list" ∧ m.label ≠ "list" :=
  ⟨rfl, program_putFolder, by cbv, by decide⟩

end WireBody.Direct
