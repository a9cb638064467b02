import WireBody.Proofs.Compile.Coverage
import WireBody.Proofs.Direct.Writer
import WireBody.Proofs.Request.Parts
import WireBody.Proofs.Run.Attributes

/-!
# Programs write what the description says

A compiled program and the direct writer give the same body for every request, and fail with the
same error.  The induction is on the value that is written: `WritesAlike` says of a value that
every step for it, wherever it stands in a program, writes what the description says.  Structures
come back to the routines of the program, which are closed, and lists to their items.

Main statement: `run_eq_body`.
-/

set_option autoImplicit false

namespace WireBody.Direct

open WireBody.Compile
open WireBody.Program
open WireBody.Request
open WireBody.Run
open WireBody.Service
open WireBody.Xml

variable {g : Graph} {p : Program}

/-- Every step for this value writes what the description says, whatever the source and the scope
in which the value is found. -/
def WritesAlike (g : Graph) (p : Program) (v : Value) : Prop :=
  ∀ {m : Member} {s : Shape} {source : Source} {op : Op} {scope : Scope},
    StepOf g m s source op → g.shapes.get? s.name = some s →
    (∀ callee ∈ op.references, p.routines.contains callee = true) →
    scope.resolve source = some v → runOp p .element scope op = writeValue g m s v

/-! ## Absent fields -/

theorem runOp_textStep {m : Member} {source : Source} {scope : Scope} :
    runOp p .element scope (textStep m source) = (do
      let v ← scope.require source m.tag
      (textOf m.tag v).map (writeText m)) := by
  unfold textStep
  split
  · rename_i asAttribute
    rw [runOp_attr]
    cases scope.require source m.tag with
    | error e => rfl
    | ok v =>
      rw [ok_bind, ok_bind]
      cases textOf m.tag v with
      | error e => rfl
      | ok text => simp [Place.setAttribute, Except.map, writeText, asAttribute]
  · rename_i asElement
    rw [runOp_element]
    cases scope.require source m.tag with
    | error e => rfl
    | ok v =>
      rw [ok_bind, ok_bind]
      cases textOf m.tag v with
      | error e => rfl
      | ok text => simp [Except.map, writeText, asElement]

/-- A step that is taken whether or not its field is there, when it is not. -/
theorem runOp_of_absent {m : Member} {s : Shape} {source : Source} {op : Op} {scope : Scope}
    (step : StepOf g m s source op) (always : isUnconditional m s = true)
    (absent : scope.resolve source = none) :
    runOp p .element scope op = writeAbsent m s := by
  cases step with
  | struct isStruct =>
    have required : m.required = true := by simpa [isUnconditional, isStruct] using always
    rw [runOp_struct_of_error (requireFields_of_none absent _)]
    simp [writeAbsent, isStruct, required]
  | text isScalar isText =>
    have required : m.required = true := by simpa [isUnconditional, isScalar] using always
    rw [runOp_textStep, require_of_none absent]
    simp [writeAbsent, isScalar, required]
  | boolean isBoolean plain =>
    have required : m.required = true := by simpa [isUnconditional, isBoolean] using always
    rw [runOp_boolean, require_of_none absent]
    simp [writeAbsent, isBoolean, required]
  | flattened isList found inner =>
    rw [runOp_forEach_none _ (items_of_none absent _), runItems_nil]
    simp [writeAbsent, isList]
  | wrapped isList found inner =>
    rw [runOp_forEach_some _ (items_of_none absent _), runItems_nil]
    simp [writeAbsent, isList]

theorem writeAbsent_of_optional {m : Member} {s : Shape} (optional : isUnconditional m s = false) :
    writeAbsent m s = .ok .empty := by
  rw [isUnconditional, Bool.or_eq_false_iff] at optional
  unfold writeAbsent
  split <;> simp_all

/-! ## Members and items -/

theorem runOp_eq_writeMember {fields : List (String × Value)} {m : Member} {op : Op}
    (alike : ∀ name v, fields.lookup name = some v → WritesAlike g p v)
    (step : MemberStepOf g m op)
    (covered : ∀ callee ∈ op.references, p.routines.contains callee = true) :
    runOp p .element (.ofFields fields) op = writeMember g fields m := by
  cases step with
  | always target always step =>
    have stored := g.shape_named target ▸ target
    cases found : fields.lookup m.label with
    | none =>
      rw [writeMember_of_none target found]
      exact runOp_of_absent step always found
    | some v =>
      rw [writeMember_of_some target found]
      exact alike m.label v found step stored covered found
  | @ifPresent s inner target optional step =>
    have stored := g.shape_named target ▸ target
    cases found : fields.lookup m.label with
    | none =>
      rw [runOp_ifPresent_of_none _ found, writeMember_of_none target found,
        writeAbsent_of_optional optional]
    | some v =>
      rw [references_ifPresent] at covered
      rw [runOp_ifPresent_of_some _ found, runOps_singleton, writeMember_of_some target found]
      exact alike m.label v found step stored covered rfl

theorem runOps_eq_writeMembers {fields : List (String × Value)} {members : List Member}
    {ops : List Op} (alike : ∀ name v, fields.lookup name = some v → WritesAlike g p v)
    (steps : List.Forall₂ (MemberStepOf g) members ops)
    (covered : ∀ callee ∈ Op.allReferences ops, p.routines.contains callee = true) :
    runOps p .element (.ofFields fields) ops = writeMembers g fields members := by
  induction steps with
  | nil => rw [runOps_nil, writeMembers_nil]
  | cons step _ ih =>
    rw [Op.allReferences] at covered
    have first := runOp_eq_writeMember alike step fun callee referred =>
      covered callee (List.mem_append_left _ referred)
    have others := ih fun callee referred => covered callee (List.mem_append_right _ referred)
    rw [runOps_cons, writeMembers_cons, first, others]

theorem runItems_eq_writeItems {m : Member} {s : Shape} {op : Op} {scope : Scope}
    (step : StepOf g m s .item op) (stored : g.shapes.get? s.name = some s)
    (covered : ∀ callee ∈ op.references, p.routines.contains callee = true) {items : List Value}
    (alike : ∀ v ∈ items, WritesAlike g p v)
    (below : ∀ v ∈ items, sizeOf v < sizeOf scope.fields) :
    runItems p .element scope [op] items below = writeItems g m s items := by
  induction items with
  | nil => rw [runItems_nil, writeItems_nil]
  | cons v rest ih =>
    have small := below v List.mem_cons_self
    have first : runOp p .element (scope.withItem v small) op = writeValue g m s v :=
      alike v List.mem_cons_self step stored covered rfl
    have others := ih (fun w member => alike w (List.mem_cons_of_mem v member))
      fun w member => below w (List.mem_cons_of_mem v member)
    rw [runItems_cons, runOps_singleton, first, others, writeItems_cons]

/-! ## Values -/

/-- Every step of a program with closed routines writes what the description says. -/
theorem writesAlike (closed : Closed g p.routines) (v : Value) : WritesAlike g p v := by
  induction v using Value.induction_on_parts with
  | whole v ih =>
    intro m s source op scope step stored covered found
    cases step with
    | struct isStruct =>
      cases h : v.fields? with
      | none =>
        rw [runOp_struct_of_error (requireFields_of_other found h _),
          writeValue_notStruct isStruct h]
      | some fields =>
        obtain rfl := Value.fields?_eq_some_iff.1 h
        -- The call leads to the routine of this shape, whose fields are parts of the value.
        obtain ⟨r, own, steps, below⟩ := closed.routine stored isStruct
          (covered s.name (by rw [Op.references]; exact List.mem_singleton_self _))
        have alike : ∀ name w, fields.lookup name = some w → WritesAlike g p w :=
          fun name w present => ih w (.field present)
        rw [runOp_struct (requireFields_of_struct found _) own,
          runOps_eq_writeMembers alike steps below, writeValue_struct isStruct]
    | text isScalar isText =>
      rw [runOp_textStep, require_of_some found, writeValue_text isScalar isText, ok_bind]
    | boolean isBoolean _ =>
      rw [runOp_boolean, require_of_some found, writeValue_boolean isBoolean, ok_bind]
      rfl
    | flattened isList target inner =>
      rw [references_forEach] at covered
      have elementStored := g.shape_named target ▸ target
      by_cases h : v.kind = .list
      · obtain ⟨items, rfl⟩ := Value.kind_eq_list_iff.1 h
        rw [runOp_forEach_none _ (items_of_list found _), writeValue_flattened isList target]
        exact runItems_eq_writeItems inner elementStored covered
          (fun w member => ih w (.item member)) _
      · rw [runOp_forEach_of_error _ (items_of_other found h _), writeValue_notList isList h]
        rfl
    | wrapped isList target inner =>
      rw [references_forEach] at covered
      have elementStored := g.shape_named target ▸ target
      by_cases h : v.kind = .list
      · obtain ⟨items, rfl⟩ := Value.kind_eq_list_iff.1 h
        rw [runOp_forEach_some _ (items_of_list found _), writeValue_wrapped isList target,
          runItems_eq_writeItems inner elementStored covered
            (fun w member => ih w (.item member)) _]
      · rw [runOp_forEach_of_error _ (items_of_other found h _), writeValue_notList isList h]
        rfl

/-! ## Bodies -/

/-- The routine of the root writes the members of the root. -/
theorem runRoutine_eq_writeMembers (closed : Closed g p.routines) {root : String} {f : Fields}
    {r : Routine} (own : p.routines.get? root = some r)
    (steps : List.Forall₂ (MemberStepOf g) f.bodyMembers r.ops) (plain : r.setsAttribute = false)
    (fields : List (String × Value)) :
    runRoutine p .document root fields = writeMembers g fields f.bodyMembers := by
  have found : p.routine? root = some r := own
  rw [runRoutine, found]
  simp only
  rw [runOps_eq_of_no_attribute plain]
  exact runOps_eq_writeMembers (fun _ v _ => writesAlike closed v) steps (closed.closed own)

/-- A document program gives the document of its structure. -/
theorem run_of_documentOf {operation root : String} {payload : Option String} {f : Fields}
    (compiled : DocumentOf g operation root payload f p) (request : Option Value) :
    p.run request = (requestFields operation request >>= documentBody g f payload) := by
  cases compiled with
  | nothing none =>
    rw [Program.run, Program.empty]
    cases requestFields operation request with
    | error e => rfl
    | ok fields => simp [documentBody, none]
  | @document rs r closed own steps nonempty plain =>
    rw [Program.run]
    cases requestFields operation request with
    | error e => rfl
    | ok fields =>
      rw [ok_bind, ok_bind, documentBody, if_neg (by rwa [List.isEmpty_iff])]
      dsimp only
      cases rootFields payload fields with
      | error e => rfl
      | ok found =>
        cases found with
        | none => rfl
        | some present =>
          have written : runRoutine ⟨operation, .document root payload, rs⟩ .document root present =
              writeMembers g present f.bodyMembers :=
            runRoutine_eq_writeMembers closed own steps plain present
          rw [ok_bind, ok_bind]
          dsimp only
          rw [written]

theorem payloadBody_of_sentRaw {m : Member} (sent : SentRaw g m)
    (fields : List (String × Value)) : payloadBody g m fields = rawBody m.label fields := by
  unfold payloadBody
  rcases sent with streaming | ⟨s, target, whole | ⟨k, isScalar, isText⟩⟩
  · rw [if_pos streaming]
  · simp only [target, whole, ↓reduceIte, ite_self]
  · cases k <;> simp_all [Scalar.isText]

/-- A compiled program gives the body that the description says, or the same error. -/
theorem run_eq_body {o : Operation} (compiled : Compile.program g o = .ok p)
    (request : Option Value) : p.run request = body g o request := by
  cases programOf_of_program compiled with
  | noInput given => simp [Program.run, Program.empty, body, given]
  | input given found isStruct undeclared compiled =>
    rw [run_of_documentOf compiled]
    simp [body, given, found, Shape.fields?, isStruct, undeclared]
  | raw given found isStruct declared sent =>
    rw [Program.run, rawProgram, body]
    simp only [given, found, Shape.fields?, isStruct, declared, Option.bind_some]
    cases requestFields o.name request with
    | error e => rfl
    | ok fields => exact (payloadBody_of_sentRaw sent fields).symm
  | payload given found isStruct declared streaming target whole isStruct' compiled =>
    rw [run_of_documentOf compiled]
    simp [body, given, found, Shape.fields?, isStruct, declared, payloadBody, streaming, target,
      whole, isStruct']

/-- A compiled program gives the bytes that the description says, or the same error. -/
theorem compiled_serialize_eq {o : Operation} (compiled : Compile.program g o = .ok p)
    (declared : Bool) (request : Option Value) :
    p.serialize declared request = serialize g o declared request := by
  rw [Program.serialize, serialize, run_eq_body compiled]

theorem compiled_serialize_eq_putFolder :
    Compile.program folderGraph putFolder = .ok folderProgram ∧
      ∀ declared request, folderProgram.serialize declared request =
        serialize folderGraph putFolder declared request :=
  ⟨program_putFolder, compiled_serialize_eq program_putFolder⟩

/-! ## Documents -/

/-- The program writes a document: its members are those of `root`, and their fields `top` are those
of the request or of its payload. -/
inductive RootIs (g : Graph) (p : Program) (request : Option Value) :
    Fields → List (String × Value) → Prop
  | document {name : String} {payload : Option String} {s : Shape} {root : Fields}
      {fields top : List (String × Value)} :
      p.plan = .document name payload → g.shapes.get? name = some s → s.kind = .struct root →
      request.getD (.struct []) = .struct fields →
      rootValue payload fields = some (.struct top) → RootIs g p request root top

/-- A document has what its root writes, or it stops where that does. -/
theorem run_of_rootIs {o : Operation} (compiled : Compile.program g o = .ok p)
    {request : Option Value} {root : Fields} {top : List (String × Value)}
    (rootIs : RootIs g p request root top) :
    p.run request =
      (writeMembers g top root.bodyMembers).map fun content => .document content.children := by
  obtain ⟨plan, found, isStruct, given, value⟩ := rootIs
  rw [run_of_documentOf (documentOf_of_plan compiled plan found isStruct),
    requestFields_eq_ok_iff.2 given, ok_bind, documentBody]
  split
  · rename_i none
    rw [List.isEmpty_iff.1 none, writeMembers_nil]
    rfl
  · simp only [rootFields_eq, value, Value.fields?, ok_bind]
    exact return_eq_map

end WireBody.Direct
