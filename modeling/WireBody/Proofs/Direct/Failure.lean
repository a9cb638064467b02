import WireBody.Proofs.Compile.Scoping
import WireBody.Proofs.Direct.Agreement

/-!
# Where writing stops

A document is written in order, member by member and item by item, and the first value that cannot
be written stops it.  `Begun` and `Reached` say how far writing comes, and `Fault` what it can stop
at there: a required field that is absent, or a value that is not of its shape.  Nothing else stops
a compiled program: its routines are all there, and its document gets no attributes.

Main statements: `fault_of_writeMembers` for documents, `requestFault_of_run` for requests, and
`missing_of_serialize` for missing values.
-/

set_option autoImplicit false

namespace WireBody.Direct

open WireBody.Compile
open WireBody.Program
open WireBody.Request
open WireBody.Run
open WireBody.Service
open WireBody.Xml

/-! ## How far writing comes -/

/-- The member `m` is next: the members before it are written. -/
def NextMember (g : Graph) (fields : List (String × Value)) (members : List Member) (m : Member) :
    Prop :=
  ∃ before after c, members = before ++ m :: after ∧ writeMembers g fields before = .ok c

/-- The item `v` is next: the items before it are written. -/
def NextItem (g : Graph) (m : Member) (s : Shape) (items : List Value) (v : Value) : Prop :=
  ∃ before after c, items = before ++ v :: after ∧ writeItems g m s before = .ok c

mutual

/-- Writing the members of `root` with the fields `top` comes to a structure with the members of `f`
and these fields. -/
inductive Begun (g : Graph) (root : Fields) (top : List (String × Value)) :
    Fields → List (String × Value) → Prop
  | root : Begun g root top root top
  | nested {m : Member} {s : Shape} {f : Fields} {fields : List (String × Value)} :
      Reached g root top m s (.struct fields) → s.kind = .struct f → Begun g root top f fields

/-- Writing the members of `root` with the fields `top` comes to the value `v` of shape `s` that
stands for `m`. -/
inductive Reached (g : Graph) (root : Fields) (top : List (String × Value)) :
    Member → Shape → Value → Prop
  | field {f : Fields} {fields : List (String × Value)} {m : Member} {s : Shape} {v : Value} :
      Begun g root top f fields → NextMember g fields f.bodyMembers m →
      g.shapes.get? m.target = some s → fields.lookup m.label = some v → Reached g root top m s v
  | item {m item : Member} {s element : Shape} {flattened : Bool} {items : List Value}
      {v : Value} :
      Reached g root top m s (.list items) → s.kind = .list item flattened →
      g.shapes.get? item.target = some element →
      NextItem g (itemMember m item flattened) element items v →
      Reached g root top (itemMember m item flattened) element v

end

/-! ## What it can stop at -/

/-- What is wrong with a value itself, whatever stands inside it. -/
inductive Unfit (m : Member) (s : Shape) (v : Value) : RunError → Prop
  | struct {f : Fields} : s.kind = .struct f → v.kind ≠ .struct →
      Unfit m s v (.typeMismatch m.tag .struct v.kind)
  | list {item : Member} {flattened : Bool} : s.kind = .list item flattened → v.kind ≠ .list →
      Unfit m s v (.typeMismatch (if flattened then "list" else m.tag) .list v.kind)
  | text {k : Scalar} : s.kind = .scalar k → k.isText = true → v.kind ≠ .text → v.kind ≠ .blob →
      Unfit m s v (.typeMismatch m.tag .text v.kind)
  | utf8 {k : Scalar} {bytes : ByteArray} : s.kind = .scalar k → k.isText = true →
      v = .blob bytes → ¬ bytes.IsValidUTF8 → Unfit m s v (.invalidUtf8 m.tag)
  | boolean : s.kind = .scalar .boolean → v.kind ≠ .boolean →
      Unfit m s v (.typeMismatch m.tag .boolean v.kind)

/-- What stops the document with the members of `root` and the fields `top`. -/
inductive Fault (g : Graph) (root : Fields) (top : List (String × Value)) : RunError → Prop
  /-- A structure lacks the field of a member that it cannot do without. -/
  | missing {f : Fields} {fields : List (String × Value)} {m : Member} {s : Shape} :
      Begun g root top f fields → NextMember g fields f.bodyMembers m →
      g.shapes.get? m.target = some s → fields.lookup m.label = none → m.required = true →
      s.isList = false → Fault g root top (.missingValue m.tag)
  /-- A value is not of its shape. -/
  | unfit {m : Member} {s : Shape} {v : Value} {e : RunError} :
      Reached g root top m s v → Unfit m s v e → Fault g root top e

variable {g : Graph}

/-! ## Sequences -/

theorem nextMember_of_writeMembers {fields : List (String × Value)} {members : List Member}
    {e : RunError} (failed : writeMembers g fields members = .error e) :
    ∃ m, NextMember g fields members m ∧ writeMember g fields m = .error e := by
  induction members with
  | nil =>
    rw [writeMembers_nil] at failed
    cases failed
  | cons m rest ih =>
    rw [writeMembers_cons] at failed
    rcases bind_eq_error_iff.1 failed with failed | ⟨first, written, failed⟩
    · exact ⟨m, ⟨[], rest, .empty, rfl, writeMembers_nil⟩, failed⟩
    · rcases bind_eq_error_iff.1 failed with failed | ⟨others, -, failed⟩
      · obtain ⟨m', ⟨before, after, c, rfl, writtenBefore⟩, stops⟩ := ih failed
        refine ⟨m', ⟨m :: before, after, first ++ c, rfl, ?_⟩, stops⟩
        rw [writeMembers_cons, written, ok_bind, writtenBefore]
        rfl
      · cases failed

theorem nextItem_of_writeItems {m : Member} {s : Shape} {items : List Value} {e : RunError}
    (failed : writeItems g m s items = .error e) :
    ∃ v ∈ items, NextItem g m s items v ∧ writeValue g m s v = .error e := by
  induction items with
  | nil =>
    rw [writeItems_nil] at failed
    cases failed
  | cons v rest ih =>
    rw [writeItems_cons] at failed
    rcases bind_eq_error_iff.1 failed with failed | ⟨first, written, failed⟩
    · exact ⟨v, List.mem_cons_self, ⟨[], rest, .empty, rfl, writeItems_nil⟩, failed⟩
    · rcases bind_eq_error_iff.1 failed with failed | ⟨others, -, failed⟩
      · obtain ⟨w, listed, ⟨before, after, c, rfl, writtenBefore⟩, stops⟩ := ih failed
        refine ⟨w, List.mem_cons_of_mem v listed, ⟨v :: before, after, first ++ c, rfl, ?_⟩, stops⟩
        rw [writeItems_cons, written, ok_bind, writtenBefore]
        rfl
      · cases failed

/-! ## Scalars and absent fields -/

theorem unfit_of_textOf {m : Member} {s : Shape} {k : Scalar} {v : Value} {e : RunError}
    (isScalar : s.kind = .scalar k) (isText : k.isText = true)
    (failed : textOf m.tag v = .error e) : Unfit m s v e := by
  rcases textOf_eq_error_iff.1 failed with ⟨bytes, isBlob, invalid, rfl⟩ | ⟨notText, notBlob, rfl⟩
  · exact .utf8 isScalar isText isBlob invalid
  · exact .text isScalar isText notText notBlob

theorem unfit_of_booleanOf {m : Member} {s : Shape} {v : Value} {e : RunError}
    (isBoolean : s.kind = .scalar .boolean) (failed : booleanOf m.tag v = .error e) :
    Unfit m s v e := by
  obtain ⟨other, rfl⟩ := booleanOf_eq_error_iff.1 failed
  exact .boolean isBoolean other

/-- Only what is required and no list is missed. -/
theorem writeAbsent_eq_error_iff {m : Member} {s : Shape} {e : RunError} :
    writeAbsent m s = .error e ↔
      m.required = true ∧ s.isList = false ∧ e = .missingValue m.tag := by
  unfold writeAbsent
  split
  · rename_i item isList
    simp [Shape.isList, isList]
  · rename_i item isList
    simp [Shape.isList, isList]
  · rename_i notFlattened notWrapped
    have single : s.isList = false := by
      refine Shape.isList_eq_false_iff.2 fun item flattened isList => ?_
      cases flattened with
      | true => exact notFlattened item isList
      | false => exact notWrapped item isList
    split
    · rename_i required
      simp [required, single, eq_comm]
    · rename_i optional
      simp [optional]

/-! ## Values -/

section

variable {root : Fields} {top : List (String × Value)}

/-- Where writing comes to this value and stops in it, there is a fault. -/
def StopsAtFault (g : Graph) (root : Fields) (top : List (String × Value)) (v : Value) : Prop :=
  ∀ {m : Member} {s : Shape} {e : RunError}, Reached g root top m s v →
    writeValue g m s v = .error e → Fault g root top e

theorem fault_of_writeMember {f : Fields} {fields : List (String × Value)}
    (begun : Begun g root top f fields) {m : Member} (next : NextMember g fields f.bodyMembers m)
    (ih : ∀ name v, fields.lookup name = some v → StopsAtFault g root top v) {e : RunError}
    (failed : writeMember g fields m = .error e) : Fault g root top e := by
  cases target : g.shapes.get? m.target with
  | none =>
    rw [writeMember, target] at failed
    cases failed
  | some s =>
    cases found : fields.lookup m.label with
    | none =>
      rw [writeMember_of_none target found] at failed
      obtain ⟨required, single, rfl⟩ := writeAbsent_eq_error_iff.1 failed
      exact .missing begun next target found required single
    | some v =>
      rw [writeMember_of_some target found] at failed
      exact ih m.label v found (.field begun next target found) failed

/-- A structure that stops has a member at fault. -/
theorem fault_of_members {f : Fields} {fields : List (String × Value)}
    (begun : Begun g root top f fields)
    (ih : ∀ name v, fields.lookup name = some v → StopsAtFault g root top v) {e : RunError}
    (failed : writeMembers g fields f.bodyMembers = .error e) : Fault g root top e := by
  obtain ⟨m, next, failed⟩ := nextMember_of_writeMembers failed
  exact fault_of_writeMember begun next ih failed

/-- A list that stops is none, or has an item at fault. -/
theorem fault_of_list {m item : Member} {s : Shape} {flattened : Bool} {v : Value}
    (reached : Reached g root top m s v) (isList : s.kind = .list item flattened)
    (ih : ∀ w, w.PartOf v → StopsAtFault g root top w) {e : RunError}
    (failed : writeValue g m s v = .error e) : Fault g root top e := by
  by_cases h : v.kind = .list
  · obtain ⟨items, rfl⟩ := Value.kind_eq_list_iff.1 h
    cases found : g.shapes.get? item.target with
    | none =>
      rw [writeValue] at failed
      simp only [isList, found] at failed
      cases failed
    | some element =>
      have below : writeItems g (itemMember m item flattened) element items = .error e := by
        cases flattened with
        | true => rwa [writeValue_flattened isList found] at failed
        | false =>
          rw [writeValue_wrapped isList found] at failed
          rcases bind_eq_error_iff.1 failed with failed | ⟨content, -, made⟩
          · exact failed
          · cases made
      obtain ⟨w, listed, next, failed⟩ := nextItem_of_writeItems below
      exact ih w (.item listed) (.item reached isList found next) failed
  · rw [writeValue_notList isList h] at failed
    cases failed
    exact .unfit reached (.list isList h)

/-- Writing a value stops at a fault alone. -/
theorem stopsAtFault (v : Value) : StopsAtFault g root top v := by
  induction v using Value.induction_on_parts with
  | whole v ih =>
    intro m s e reached failed
    cases kind : s.kind with
    | struct f =>
      cases h : v.fields? with
      | none =>
        rw [writeValue_notStruct kind h] at failed
        cases failed
        exact .unfit reached (.struct kind (Value.fields?_eq_none_iff.1 h))
      | some fields =>
        obtain rfl := Value.fields?_eq_some_iff.1 h
        rw [writeValue_struct kind] at failed
        rcases bind_eq_error_iff.1 failed with failed | ⟨c, -, failed⟩
        · exact fault_of_members (.nested reached kind)
            (fun name w present => ih w (.field present)) failed
        · cases failed
    | list item flattened => exact fault_of_list reached kind ih failed
    | scalar k =>
      cases isText : k.isText with
      | true =>
        rw [writeValue_text kind isText, map_eq_error_iff] at failed
        exact .unfit reached (unfit_of_textOf kind isText failed)
      | false =>
        by_cases isBoolean : k = .boolean
        · subst isBoolean
          rw [writeValue_boolean kind, map_eq_error_iff] at failed
          exact .unfit reached (unfit_of_booleanOf kind failed)
        · rw [writeValue, kind] at failed
          cases k <;> simp_all [Scalar.isText]
    | map key value flattened =>
      rw [writeValue, kind] at failed
      cases failed

/-- Writing a document stops at a fault alone. -/
theorem fault_of_writeMembers {e : RunError}
    (failed : writeMembers g top root.bodyMembers = .error e) : Fault g root top e :=
  fault_of_members .root (fun _ v _ => stopsAtFault v) failed

end

/-! ## Requests -/

/-- What stops the run of a program on a request. -/
inductive RequestFault (g : Graph) (p : Program) (request : Option Value) : RunError → Prop
  /-- The request is no structure. -/
  | request {v : Value} : request = some v → v.kind ≠ .struct →
      RequestFault g p request (.typeMismatch p.operation .struct v.kind)
  /-- What is sent as it is is neither text nor bytes. -/
  | raw {field : String} {fields : List (String × Value)} {v : Value} :
      p.plan = .raw field → request.getD (.struct []) = .struct fields →
      fields.lookup field = some v → v.kind ≠ .text → v.kind ≠ .blob →
      RequestFault g p request (.typeMismatch field .blob v.kind)
  /-- The field that makes up the document is no structure. -/
  | payload {root field : String} {fields : List (String × Value)} {v : Value} :
      p.plan = .document root (some field) → request.getD (.struct []) = .struct fields →
      fields.lookup field = some v → v.kind ≠ .struct →
      RequestFault g p request (.typeMismatch field .struct v.kind)
  /-- The document stops. -/
  | document {root : String} {payload : Option String} {s : Shape} {f : Fields}
      {fields top : List (String × Value)} {e : RunError} :
      p.plan = .document root payload → g.shapes.get? root = some s → s.kind = .struct f →
      request.getD (.struct []) = .struct fields →
      rootValue payload fields = some (.struct top) → Fault g f top e →
      RequestFault g p request e

variable {p : Program} {request : Option Value} {e : RunError}

theorem requestFault_of_requestFields (failed : requestFields p.operation request = .error e) :
    RequestFault g p request e := by
  cases request with
  | none => cases failed
  | some v =>
    cases v with
    | struct fields => cases failed
    | list _ | text _ | blob _ | boolean _ =>
      cases failed
      exact .request rfl nofun

theorem requestFault_of_rawBytes {field : String} {fields : List (String × Value)}
    (plan : p.plan = .raw field) (given : request.getD (.struct []) = .struct fields)
    (failed : rawBytes field (fields.lookup field) = .error e) : RequestFault g p request e := by
  obtain ⟨v, found, notText, notBlob, rfl⟩ := rawBytes_eq_error_iff.1 failed
  exact .raw plan given found notText notBlob

theorem requestFault_of_documentBody {root : String} {payload : Option String} {s : Shape}
    {f : Fields} (plan : p.plan = .document root payload) (found : g.shapes.get? root = some s)
    (isStruct : s.kind = .struct f) {fields : List (String × Value)}
    (given : request.getD (.struct []) = .struct fields)
    (failed : documentBody g f payload fields = .error e) : RequestFault g p request e := by
  unfold documentBody at failed
  split at failed
  · cases failed
  · rw [rootFields_eq] at failed
    cases value : rootValue payload fields with
    | none =>
      rw [value] at failed
      cases failed
    | some v =>
      rw [value] at failed
      cases h : v.fields? with
      | some top =>
        obtain rfl := Value.fields?_eq_some_iff.1 h
        simp only [Value.fields?, ok_bind] at failed
        rcases bind_eq_error_iff.1 failed with failed | ⟨c, -, failed⟩
        · exact .document plan found isStruct given value (fault_of_writeMembers failed)
        · cases failed
      | none =>
        simp only [h, error_bind, Except.error.injEq] at failed
        subst failed
        -- Only a payload can be something else than a structure.
        cases payload with
        | none =>
          cases value
          cases h
        | some field => exact .payload plan given value (Value.fields?_eq_none_iff.1 h)

theorem requestFault_of_documentOf {operation root : String} {payload : Option String} {s : Shape}
    {f : Fields} (made : DocumentOf g operation root payload f p)
    (found : g.shapes.get? root = some s) (isStruct : s.kind = .struct f)
    (failed : p.run request = .error e) : RequestFault g p request e := by
  have operationName : p.operation = operation := by cases made <;> rfl
  rw [run_of_documentOf made] at failed
  rcases bind_eq_error_iff.1 failed with failed | ⟨fields, given, failed⟩
  · exact requestFault_of_requestFields (operationName ▸ failed)
  · cases made with
    | nothing none => simp [documentBody, none] at failed
    | document _ _ _ _ _ =>
      exact requestFault_of_documentBody rfl found isStruct (requestFields_eq_ok_iff.1 given) failed

/-- A compiled program stops at a fault of the request alone. -/
theorem requestFault_of_run {o : Operation} (compiled : Compile.program g o = .ok p)
    (failed : p.run request = .error e) : RequestFault g p request e := by
  cases programOf_of_program compiled with
  | noInput _ =>
    rw [Program.run] at failed
    rcases bind_eq_error_iff.1 failed with failed | ⟨fields, -, failed⟩
    · exact requestFault_of_requestFields failed
    · cases failed
  | input _ found isStruct _ made => exact requestFault_of_documentOf made found isStruct failed
  | raw _ _ _ _ _ =>
    rw [Program.run] at failed
    rcases bind_eq_error_iff.1 failed with failed | ⟨fields, given, failed⟩
    · exact requestFault_of_requestFields failed
    · rcases bind_eq_error_iff.1 failed with failed | ⟨bytes, -, failed⟩
      · exact requestFault_of_rawBytes rfl (requestFields_eq_ok_iff.1 given) failed
      · cases failed
  | payload _ _ _ _ _ target _ isStruct made =>
    exact requestFault_of_documentOf made (g.shape_named target ▸ target) isStruct failed

/-! ## Missing values -/

/-- While the document with the members of `root` and the fields `top` is written, a structure lacks
the field of a required body member of this tag that is no list. -/
def Lacks (g : Graph) (root : Fields) (top : List (String × Value)) (tag : String) : Prop :=
  ∃ f fields m s, Begun g root top f fields ∧ m ∈ f.members ∧ m.inBody = true ∧
    m.required = true ∧ g.shapes.get? m.target = some s ∧ s.isList = false ∧ m.tag = tag ∧
    fields.lookup m.label = none

theorem NextMember.mem {fields : List (String × Value)} {members : List Member} {m : Member}
    (next : NextMember g fields members m) : m ∈ members := by
  obtain ⟨before, after, c, rfl, -⟩ := next
  exact List.mem_append_right before List.mem_cons_self

theorem lacks_of_fault {root : Fields} {top : List (String × Value)} {tag : String}
    (fault : Fault g root top (.missingValue tag)) : Lacks g root top tag := by
  cases fault with
  | @missing f fields m s begun next target absent required single =>
    obtain ⟨member, inBody⟩ := List.mem_filter.1 next.mem
    exact ⟨f, fields, m, s, begun, member, inBody, required, target, single, rfl, absent⟩
  | unfit _ unfit => cases unfit

/-- A compiled program reads present fields and items only where there are such, has every routine
that it calls, sets no attribute of the document, and misses a value only where a structure lacks a
field that it cannot do without. -/
theorem missing_of_serialize {o : Operation} (compiled : Compile.program g o = .ok p) :
    (∀ r ∈ p.routines.values, r.Scoped) ∧
      ∀ declared request e, p.serialize declared request = .error e →
        (∀ shape, e ≠ .missingRoutine shape) ∧ (∀ name, e ≠ .attributeOnDocument name) ∧
        ∀ tag, e = .missingValue tag → ∃ root payload s f fields top,
          p.plan = .document root payload ∧ g.shapes.get? root = some s ∧ s.kind = .struct f ∧
          request.getD (.struct []) = .struct fields ∧
          rootValue payload fields = some (.struct top) ∧ Lacks g f top tag := by
  refine ⟨fun r member => scoped_of_program compiled member, fun declared request e failed => ?_⟩
  have fault := requestFault_of_run compiled (map_eq_error_iff.1 failed)
  refine ⟨?_, ?_, ?_⟩
  · rintro shape rfl
    cases fault with
    | document _ _ _ _ _ fault => cases fault with | unfit _ unfit => cases unfit
  · rintro name rfl
    cases fault with
    | document _ _ _ _ _ fault => cases fault with | unfit _ unfit => cases unfit
  · rintro tag rfl
    cases fault with
    | document plan found isStruct given value fault =>
      exact ⟨_, _, _, _, _, _, plan, found, isStruct, given, value, lacks_of_fault fault⟩

/-- A request to put a folder that nobody owns. -/
theorem missing_of_serialize_putFolder :
    folderProgram.serialize true (some (.struct [("Root", .struct [])])) =
        .error (.missingValue "Owner") ∧
      ∃ root payload s f fields top, folderProgram.plan = .document root payload ∧
        folderGraph.shapes.get? root = some s ∧ s.kind = .struct f ∧
        Value.struct [("Root", .struct [])] = .struct fields ∧
        rootValue payload fields = some (.struct top) ∧ Lacks folderGraph f top "Owner" := by
  have failed : folderProgram.serialize true (some (.struct [("Root", .struct [])])) =
      .error (.missingValue "Owner") := by cbv
  exact ⟨failed, ((missing_of_serialize program_putFolder).2 _ _ _ failed).2.2 _ rfl⟩

end WireBody.Direct
