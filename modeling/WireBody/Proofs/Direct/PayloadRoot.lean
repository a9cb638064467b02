import WireBody.Proofs.Direct.Agreement
import WireBody.Proofs.Service.Loaded

/-!
# A payload is a document of its own

A structure that an input declares as its payload makes up the body just as it would if it were the
input itself: it has the same routines, fails to compile for the same reason, and its values are
written alike.  Nothing is written in the name of the field that it stands in.

Main statement: `payload_serialized_as_root`.
-/

set_option autoImplicit false

namespace WireBody.Direct

open WireBody.Compile
open WireBody.Program
open WireBody.Request
open WireBody.Run
open WireBody.Service

variable {g : Graph}

/-! ## Inputs -/

/-- The input of the operation is the structure `name` with the members `f`. -/
def InputIs (g : Graph) (o : Operation) (name : String) (f : Fields) : Prop :=
  o.input = some name ∧ ∃ s, g.shapes.get? name = some s ∧ s.kind = .struct f

/-- The input declares its member `field` to be the body, which is not streamed and points to the
structure `root`. -/
def PayloadIs (g : Graph) (f : Fields) (field root : String) : Prop :=
  ∃ m, f.payload = some field ∧ f.member? field = some m ∧ m.target = root ∧
    g.isStreaming m = .ok false

theorem label_of_member? {f : Fields} {field : String} {m : Member}
    (found : f.member? field = some m) : m.label = field := by
  have named : m.name = some field := by simpa using List.find?_some found
  rw [Member.label, named, Option.some_or, Option.getD_some]

/-! ## Programs -/

theorem program_of_own {o : Operation} {root : String} {f : Fields} (input : InputIs g o root f)
    (own : f.payload = none) : program g o = documentProgram g o.name root none := by
  obtain ⟨given, s, found, isStruct⟩ := input
  have undeclared : f.payloadMember? = none := by
    rw [Fields.payloadMember?, own, Option.bind_none]
  simp only [program, given, shapeOf_eq_ok_iff.2 found, isStruct, undeclared]

theorem program_of_payload {o : Operation} {input field root : String} {f f' : Fields}
    (above : InputIs g o input f) (payload : PayloadIs g f field root) {t : Shape}
    (target : g.shapes.get? root = some t) (isStruct : t.kind = .struct f') :
    program g o = documentProgram g o.name root (some field) := by
  obtain ⟨given, s, found, isStruct'⟩ := above
  obtain ⟨m, named, member, rfl, kept⟩ := payload
  have declared : f.payloadMember? = some m := by
    rw [Fields.payloadMember?, named, Option.bind_some, member]
  have unstreamed : streamed g m = .ok false := by rw [streamed, kept]
  simp only [program, given, shapeOf_eq_ok_iff.2 found, isStruct', declared, payloadProgram,
    unstreamed, shapeOf_eq_ok_iff.2 target, isStruct, g.shape_named target,
    label_of_member? member]

/-- What becomes of a document does not depend on the operation that it is for, nor on the field
that it is found in. -/
theorem documentProgram_cases (g : Graph) (root : String) :
    (∃ e, ∀ operation payload, documentProgram g operation root payload = .error e) ∨
    (∀ operation payload, documentProgram g operation root payload = .ok (.empty operation)) ∨
    ∃ rs, ∀ operation payload,
      documentProgram g operation root payload = .ok ⟨operation, .document root payload, rs⟩ := by
  cases worked : routines g root with
  | error e => exact .inl ⟨e, fun operation payload => by simp only [documentProgram, worked]⟩
  | ok rs =>
    cases own : rs.get? root with
    | none =>
      exact .inr (.inl fun operation payload => by simp only [documentProgram, worked, own])
    | some r =>
      by_cases nothing : r.ops.isEmpty = true
      · refine .inr (.inl fun operation payload => ?_)
        simp only [documentProgram, worked, own, nothing, ↓reduceIte]
      · by_cases attr : r.setsAttribute = true
        · refine .inl ⟨.attributeOnDocument root, fun operation payload => ?_⟩
          simp only [documentProgram, worked, own, nothing, attr, ↓reduceIte,
            Bool.false_eq_true]
        · refine .inr (.inr ⟨rs, fun operation payload => ?_⟩)
          simp only [documentProgram, worked, own, nothing, attr, ↓reduceIte,
            Bool.false_eq_true]

/-! ## Bodies -/

section

variable {operation operation' root field : String} {f : Fields} {p p' : Program}

/-- The document of a field that holds a structure is the document of that structure. -/
theorem serialize_payload_eq_root (made : DocumentOf g operation root (some field) f p)
    (made' : DocumentOf g operation' root none f p') {fields present : List (String × Value)}
    (holds : fields.lookup field = some (.struct present)) (declared : Bool) :
    p.serialize declared (some (.struct fields)) =
      p'.serialize declared (some (.struct present)) := by
  have fieldRoot : rootFields (some field) fields = .ok (some present) := by
    simp only [rootFields, holds, Value.fields?]
  have ownRoot : rootFields none present = .ok (some present) := rfl
  have bodies : documentBody g f (some field) fields = documentBody g f none present := by
    rw [documentBody, documentBody, fieldRoot, ownRoot]
  rw [Program.serialize, Program.serialize, run_of_documentOf made, run_of_documentOf made']
  simp only [requestFields, Value.fields?, ok_bind, bodies]

/-- Without the field there is no document. -/
theorem serialize_of_absent_payload (made : DocumentOf g operation root (some field) f p)
    {request : Option Value} {fields : List (String × Value)}
    (given : request.getD (.struct []) = .struct fields) (absent : fields.lookup field = none)
    (declared : Bool) : p.serialize declared request = .ok .empty := by
  have nothing : documentBody g f (some field) fields = .ok (.document []) := by
    simp only [documentBody, rootFields, absent, ok_bind, pure_eq_ok, ite_self]
  rw [Program.serialize, run_of_documentOf made, requestFields_eq_ok_iff.2 given, ok_bind, nothing]
  rfl

end

/-- A structure without a payload of its own compiles as the payload of an operation `o` to what it
compiles to as the input of an operation `o'`: both fail with the same error, or have the same
routines and the same document.  A request whose field holds a structure then has the body that this
structure has as a request, and one without the field has an empty body. -/
theorem payload_serialized_as_root {o o' : Operation} {input field root : String}
    {f f' : Fields} (above : InputIs g o input f) (payload : PayloadIs g f field root)
    (below : InputIs g o' root f') (own : f'.payload = none) :
    (∃ e, program g o = .error e ∧ program g o' = .error e) ∨
    ∃ p p', program g o = .ok p ∧ program g o' = .ok p' ∧ p.routines = p'.routines ∧
      (p.plan = .empty ∧ p'.plan = .empty ∨
        p.plan = .document root (some field) ∧ p'.plan = .document root none) ∧
      (∀ declared fields present, fields.lookup field = some (.struct present) →
        p.serialize declared (some (.struct fields)) =
          p'.serialize declared (some (.struct present))) ∧
      ∀ declared request fields, request.getD (.struct []) = .struct fields →
        fields.lookup field = none → p.serialize declared request = .ok .empty := by
  obtain ⟨t, target, isStruct⟩ := below.2
  have asPayload := program_of_payload above payload target isStruct
  have asInput := program_of_own below own
  -- Either way the program is that of a document of the same structure.
  have documents {p p' : Program} (compiled : program g o = .ok p)
      (compiled' : program g o' = .ok p') :
      DocumentOf g o.name root (some field) f' p ∧ DocumentOf g o'.name root none f' p' :=
    ⟨documentOf_of_documentProgram target isStruct (asPayload ▸ compiled),
      documentOf_of_documentProgram target isStruct (asInput ▸ compiled')⟩
  have bodies {p p' : Program} (compiled : program g o = .ok p)
      (compiled' : program g o' = .ok p') :
      (∀ declared fields present, fields.lookup field = some (.struct present) →
        p.serialize declared (some (.struct fields)) =
          p'.serialize declared (some (.struct present))) ∧
      ∀ declared request fields, request.getD (.struct []) = .struct fields →
        fields.lookup field = none → p.serialize declared request = .ok .empty := by
    obtain ⟨made, made'⟩ := documents compiled compiled'
    constructor
    · intro declared fields present holds
      exact serialize_payload_eq_root made made' holds declared
    · intro declared request fields given absent
      exact serialize_of_absent_payload made given absent declared
  rcases documentProgram_cases g root with ⟨e, failed⟩ | nothing | ⟨rs, made⟩
  · exact .inl ⟨e, by rw [asPayload, failed], by rw [asInput, failed]⟩
  · have compiled : program g o = .ok (.empty o.name) := by rw [asPayload, nothing]
    have compiled' : program g o' = .ok (.empty o'.name) := by rw [asInput, nothing]
    exact .inr ⟨_, _, compiled, compiled', rfl, .inl ⟨rfl, rfl⟩, bodies compiled compiled'⟩
  · have compiled : program g o = .ok ⟨o.name, .document root (some field), rs⟩ := by
      rw [asPayload, made]
    have compiled' : program g o' = .ok ⟨o'.name, .document root none, rs⟩ := by
      rw [asInput, made]
    exact .inr ⟨_, _, compiled, compiled', rfl, .inr ⟨rfl, rfl⟩, bodies compiled compiled'⟩

/-! ## A folder in an envelope -/

/-- The member of an envelope that holds a request to put a folder. -/
def putMember : Member :=
  ⟨some "Put", "Request", some "put", .body, false, false, some ⟨"urn:put", none⟩, true, false⟩

/-- An envelope: the request in it is its payload, and its path is not in the body. -/
def envelopeFields : Fields :=
  ⟨[⟨some "Path", "Name", none, .uri, true, false, none, false, false⟩, putMember], some "Put"⟩

/-- The graph of folders and envelopes. -/
def envelopeGraph : Graph :=
  folderGraph.insertShape
    ⟨"Envelope", .struct envelopeFields, some ⟨"urn:envelopes", none⟩, false⟩

/-- The operation that sends an envelope. -/
def sendEnvelope : Operation := ⟨"SendEnvelope", some "Envelope"⟩

theorem program_putFolder_envelope : program envelopeGraph putFolder = .ok folderProgram := by
  cbv

/-- In an envelope the request to put a folder has the body that it has by itself.  Neither the name
nor the namespace that the envelope has for it are written. -/
theorem payload_serialized_as_root_envelope :
    envelopeGraph.check = .ok () ∧
    ∃ p, program envelopeGraph sendEnvelope = .ok p ∧
      p.plan = .document "Request" (some "Put") ∧
      (∀ path request, p.serialize true
          (some (.struct [("Path", .text path), ("Put", .struct request)])) =
        folderProgram.serialize true (some (.struct request))) ∧
      p.serialize true none = .ok .empty := by
  have envelope : InputIs envelopeGraph sendEnvelope "Envelope" envelopeFields :=
    ⟨rfl, _, rfl, rfl⟩
  have put : InputIs envelopeGraph putFolder "Request" putFolderFields := ⟨rfl, _, rfl, rfl⟩
  have payload : PayloadIs envelopeGraph envelopeFields "Put" "Request" :=
    ⟨putMember, rfl, rfl, rfl, rfl⟩
  refine ⟨rfl, ?_⟩
  have same := payload_serialized_as_root envelope payload put rfl
  rw [program_putFolder_envelope] at same
  rcases same with ⟨e, -, failed⟩ | ⟨p, p', compiled, compiled', -, plans, bodies, absent⟩
  · cases failed
  · cases compiled'
    rcases plans with ⟨-, nothing⟩ | ⟨plan, -⟩
    · cases nothing
    · refine ⟨p, compiled, plan, fun path request => bodies true _ _ rfl, ?_⟩
      exact absent true none [] rfl rfl

end WireBody.Direct
