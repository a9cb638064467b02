import WireBody.Proofs.Direct.Agreement
import WireBody.Proofs.Request.Conformance

/-!
# Conforming requests are the ones that are written

A value is written exactly if it conforms to its shape.  The induction is on the value; that a
document carries nothing without a form is what `Writable` says.

Main statements: `writeValue_ok_iff` for values, and `run_ok_iff` for requests.
-/

set_option autoImplicit false

namespace WireBody.Direct

open WireBody.Compile
open WireBody.Program
open WireBody.Request
open WireBody.Run
open WireBody.Service
open WireBody.Xml

/-! ## Texts -/

theorem textOf_ok_iff {name : String} {v : Value} :
    (∃ text, textOf name v = .ok text) ↔ v.IsText := by
  simp only [textOf_eq_ok_iff]
  cases v with
  | text s => simp [Value.IsText]
  | blob bytes =>
    constructor
    · rintro ⟨text, isText | isBytes⟩
      · cases isText
      · cases isBytes
        exact text.isValidUTF8
    · intro valid
      exact ⟨.fromUTF8 bytes valid, .inr rfl⟩
  | struct _ | list _ | boolean _ => simp [Value.IsText]

theorem booleanOf_ok_iff {name : String} {v : Value} :
    (∃ text, booleanOf name v = .ok text) ↔ ∃ b, v = .boolean b := by
  cases v <;> simp [booleanOf]

/-! ## One after the other -/

section

variable {g : Graph} {m : Member} {s : Shape} {fields : List (String × Value)}

theorem writeMembers_ok_iff {members : List Member} :
    (∃ c, writeMembers g fields members = .ok c) ↔
      ∀ m ∈ members, ∃ c, writeMember g fields m = .ok c := by
  induction members with
  | nil => simp
  | cons m rest ih =>
    rw [List.forall_mem_cons, ← ih, writeMembers_cons]
    exact both_ok_iff

theorem writeItems_ok_iff {items : List Value} :
    (∃ c, writeItems g m s items = .ok c) ↔ ∀ v ∈ items, ∃ c, writeValue g m s v = .ok c := by
  induction items with
  | nil => simp
  | cons v rest ih =>
    rw [List.forall_mem_cons, ← ih, writeItems_cons]
    exact both_ok_iff

theorem writeAbsent_ok_iff :
    (∃ c, writeAbsent m s = .ok c) ↔ (m.required = true → s.isList = true) := by
  unfold writeAbsent Shape.isList
  split
  · simp [*]
  · simp [*]
  · rename_i notFlattened notWrapped
    cases m.required with
    | false => simp
    | true =>
      cases isList : s.kind with
      | list item flattened =>
        cases flattened with
        | true => exact absurd isList (notFlattened item)
        | false => exact absurd isList (notWrapped item)
      | _ => simp

end

/-! ## Values -/

section

variable {g : Graph} {root : Fields}

/-- The value is written wherever it conforms, and nowhere else. -/
def WrittenIfConforms (g : Graph) (root : Fields) (v : Value) : Prop :=
  ∀ {m : Member} {s : Shape}, Carries g root m s →
    ((∃ c, writeValue g m s v = .ok c) ↔ Conforms g s v)

theorem writeMember_ok_iff (writable : Writable g root) {f : Fields} (held : Holds g root f)
    {m : Member} (member : m ∈ f.bodyMembers) {fields : List (String × Value)}
    (ih : ∀ name v, fields.lookup name = some v → WrittenIfConforms g root v) :
    (∃ c, writeMember g fields m = .ok c) ↔ MemberConforms g m (fields.lookup m.label) := by
  obtain ⟨s, target⟩ := writable.target held m member
  cases found : fields.lookup m.label with
  | none =>
    rw [writeMember_of_none target found, writeAbsent_ok_iff, memberConforms_none_iff target]
  | some v =>
    rw [writeMember_of_some target found, memberConforms_some_iff target]
    exact ih m.label v found (held.member member target)

/-- The members of a structure of the document are written exactly if their fields conform. -/
theorem members_ok_iff (writable : Writable g root) {f : Fields} (held : Holds g root f)
    {fields : List (String × Value)}
    (ih : ∀ name v, fields.lookup name = some v → WrittenIfConforms g root v) :
    (∃ c, writeMembers g fields f.bodyMembers = .ok c) ↔
      ∀ m ∈ f.bodyMembers, MemberConforms g m (fields.lookup m.label) := by
  rw [writeMembers_ok_iff]
  exact forall₂_congr fun m member => writeMember_ok_iff writable held member ih

theorem writeValue_ok_iff_of_struct (writable : Writable g root) {m : Member} {s : Shape}
    {f : Fields} (carried : Carries g root m s) (isStruct : s.kind = .struct f) {v : Value}
    (ih : ∀ w, w.PartOf v → WrittenIfConforms g root w) :
    (∃ c, writeValue g m s v = .ok c) ↔ Conforms g s v := by
  rw [conforms_struct_iff isStruct]
  cases h : v.fields? with
  | none =>
    rw [writeValue_notStruct isStruct h]
    simp only [reduceCtorEq, exists_false, false_iff, not_exists, not_and]
    rintro fields rfl
    cases h
  | some fields =>
    obtain rfl := Value.fields?_eq_some_iff.1 h
    have members := members_ok_iff writable (.carried carried isStruct)
      fun name w present => ih w (.field present)
    rw [writeValue_struct isStruct, return_ok_iff, members]
    simp only [Value.struct.injEq, exists_eq_left']

theorem writeValue_ok_iff_of_list {m item : Member} {s element : Shape} {flattened : Bool}
    (carried : Carries g root m s) (isList : s.kind = .list item flattened)
    (found : g.shapes.get? item.target = some element) {v : Value}
    (ih : ∀ w, w.PartOf v → WrittenIfConforms g root w) :
    (∃ c, writeValue g m s v = .ok c) ↔ Conforms g s v := by
  rw [conforms_list_iff isList found]
  by_cases h : v.kind = .list
  · obtain ⟨items, rfl⟩ := Value.kind_eq_list_iff.1 h
    have below := carried.item isList found
    have all : (∀ w ∈ items, ∃ c, writeValue g (itemMember m item flattened) element w = .ok c) ↔
        ∀ w ∈ items, Conforms g element w :=
      forall₂_congr fun w listed => ih w (.item listed) below
    simp only [Value.list.injEq, exists_eq_left']
    rw [← all, ← writeItems_ok_iff]
    cases flattened with
    | true => rw [writeValue_flattened isList found, itemMember, if_pos rfl]
    | false => rw [writeValue_wrapped isList found, return_ok_iff, itemMember, if_neg nofun]
  · rw [writeValue_notList isList h]
    simp only [reduceCtorEq, exists_false, false_iff, not_exists, not_and]
    rintro items rfl
    exact absurd rfl h

/-- A value that the document carries is written exactly if it conforms to its shape. -/
theorem writeValue_ok_iff (writable : Writable g root) (v : Value) :
    WrittenIfConforms g root v := by
  induction v using Value.induction_on_parts with
  | whole v ih =>
    intro m s carried
    cases writable.form carried with
    | struct isStruct => exact writeValue_ok_iff_of_struct writable carried isStruct ih
    | list isList found => exact writeValue_ok_iff_of_list carried isList found ih
    | text isScalar isText =>
      rw [conforms_text_iff isScalar isText, writeValue_text isScalar isText, map_ok_iff,
        textOf_ok_iff]
    | boolean isBoolean _ =>
      rw [conforms_boolean_iff isBoolean, writeValue_boolean isBoolean, map_ok_iff,
        booleanOf_ok_iff]

end

/-! ## Requests -/

variable {g : Graph}

/-- What a plan asks of the fields of a request.  A payload may always be absent. -/
def Accepts (g : Graph) (fields : List (String × Value)) : Plan → Prop
  | .empty => True
  | .raw field => ∀ v, fields.lookup field = some v → v.kind = .text ∨ v.kind = .blob
  | .document root payload =>
    ∃ s, g.shapes.get? root = some s ∧ ∀ v, rootValue payload fields = some v → Conforms g s v

theorem rawBytes_ok_iff {field : String} {fields : List (String × Value)} :
    (∃ bytes, rawBytes field (fields.lookup field) = .ok bytes) ↔
      Accepts g fields (.raw field) := by
  rw [Accepts]
  cases found : fields.lookup field with
  | none => simp [rawBytes]
  | some v => cases v <;> simp [rawBytes, Value.kind]

theorem documentBody_ok_iff {root : String} {s : Shape} {f : Fields} {payload : Option String}
    (writable : Writable g f) (nonempty : f.bodyMembers ≠ [])
    (found : g.shapes.get? root = some s) (isStruct : s.kind = .struct f)
    {fields : List (String × Value)} :
    (∃ b, documentBody g f payload fields = .ok b) ↔
      Accepts g fields (.document root payload) := by
  rw [documentBody, if_neg (by rwa [List.isEmpty_iff]), Accepts, rootFields_eq]
  simp only [found, Option.some.injEq, exists_eq_left']
  cases value : rootValue payload fields with
  | none => simp
  | some v =>
    simp only [Option.some.injEq, forall_eq']
    rw [conforms_struct_iff isStruct]
    cases h : v.fields? with
    | none =>
      simp only [error_bind, reduceCtorEq, exists_false, false_iff, not_exists, not_and]
      rintro present rfl
      cases h
    | some present =>
      obtain rfl := Value.fields?_eq_some_iff.1 h
      have written : ∀ name w, present.lookup name = some w → WrittenIfConforms g f w :=
        fun _ w _ => writeValue_ok_iff writable w
      have members := members_ok_iff writable .root written
      simp only [ok_bind, Value.struct.injEq, exists_eq_left']
      exact return_ok_iff.trans members

theorem run_ok_iff_of_documentOf {p : Program} {operation root : String} {payload : Option String}
    {s : Shape} {f : Fields} (compiled : DocumentOf g operation root payload f p)
    (found : g.shapes.get? root = some s) (isStruct : s.kind = .struct f)
    (request : Option Value) :
    (∃ b, p.run request = .ok b) ↔
      ∃ fields, request.getD (.struct []) = .struct fields ∧ Accepts g fields p.plan := by
  rw [run_of_documentOf compiled, bind_ok_iff]
  refine exists_congr fun fields => and_congr requestFields_eq_ok_iff ?_
  cases compiled with
  | nothing none => simp [documentBody, none, Program.empty, Accepts]
  | document closed own steps nonempty _ =>
    exact documentBody_ok_iff (writable_of_closed closed own steps) nonempty found isStruct

theorem run_ok_iff {o : Operation} {p : Program} (compiled : Compile.program g o = .ok p)
    (request : Option Value) :
    (∃ b, p.run request = .ok b) ↔
      ∃ fields, request.getD (.struct []) = .struct fields ∧ Accepts g fields p.plan := by
  cases programOf_of_program compiled with
  | noInput _ =>
    rw [Program.run, bind_ok_iff]
    refine exists_congr fun fields => and_congr requestFields_eq_ok_iff ?_
    simp [Program.empty, Accepts]
  | input _ found isStruct _ compiled =>
    exact run_ok_iff_of_documentOf compiled found isStruct request
  | @raw _ _ _ m _ _ _ _ _ =>
    rw [Program.run, bind_ok_iff]
    refine exists_congr fun fields => and_congr requestFields_eq_ok_iff ?_
    rw [rawProgram]
    exact return_ok_iff.trans rawBytes_ok_iff
  | payload _ _ _ _ _ target _ isStruct compiled =>
    exact run_ok_iff_of_documentOf compiled (g.shape_named target ▸ target) isStruct request

/-- Serializing succeeds exactly on conforming requests; no request counts as one without fields. -/
theorem serialize_ok_iff_accepts {o : Operation} {p : Program}
    (compiled : Compile.program g o = .ok p) (declared : Bool) (request : Option Value) :
    (∃ bytes, p.serialize declared request = .ok bytes) ↔
      ∃ fields, request.getD (.struct []) = .struct fields ∧ Accepts g fields p.plan := by
  rw [Program.serialize, map_ok_iff]
  exact run_ok_iff compiled request

theorem serialize_ok_iff_accepts_putFolder :
    Compile.program folderGraph putFolder = .ok folderProgram ∧
      ∀ declared request, (∃ bytes, folderProgram.serialize declared request = .ok bytes) ↔
        ∃ fields, request.getD (.struct []) = .struct fields ∧
          Accepts folderGraph fields folderProgram.plan :=
  ⟨program_putFolder, serialize_ok_iff_accepts program_putFolder⟩

end WireBody.Direct
