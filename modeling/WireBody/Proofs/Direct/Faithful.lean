import WireBody.Proofs.Direct.Agreement
import WireBody.Proofs.Direct.Ownership
import WireBody.Proofs.Request.SameBody
import WireBody.Proofs.Run.Elements
import WireBody.Proofs.Run.Written
import WireBody.Proofs.Service.Described

/-!
# Bodies keep requests apart

Where names tell the members of every structure apart, a document determines all that it carries:
two requests with one document differ only where the body does not look.  The induction is on the
first of the two values.

Main statement: `sameBody_of_writeValue`.
-/

set_option autoImplicit false

namespace WireBody.Direct

open WireBody.Compile
open WireBody.Program
open WireBody.Request
open WireBody.Run
open WireBody.Service
open WireBody.Xml

/-! ## Texts -/

theorem ofText_injective {tag a b : String} (same : Node.ofText tag a = Node.ofText tag b) :
    a = b := by
  simp only [Node.ofText, Node.element.injEq, true_and] at same
  split at same
  · rename_i empty
    split at same
    · rename_i empty'
      rw [String.isEmpty_iff.1 empty, String.isEmpty_iff.1 empty']
    · cases same
  · split at same
    · cases same
    · cases same
      rfl

theorem writeText_injective {m : Member} {a b : String} (same : writeText m a = writeText m b) :
    a = b := by
  unfold writeText at same
  split at same
  · cases same
    rfl
  · exact ofText_injective (List.singleton_inj.1 (congrArg Content.children same))

theorem booleanText_injective {a b : Bool} (same : booleanText a = booleanText b) : a = b := by
  cases a <;> cases b <;> simp_all [booleanText]

/-! ## Absent fields -/

variable {g : Graph}

/-- An absent list is written like one without items. -/
theorem writeMember_of_list {m item : Member} {s element : Shape} {flattened : Bool}
    (target : g.shapes.get? m.target = some s) (isList : s.kind = .list item flattened)
    (found : g.shapes.get? item.target = some element) (fields : List (String × Value)) :
    writeMember g fields m = writeValue g m s ((fields.lookup m.label).getD (.list [])) := by
  cases present : fields.lookup m.label with
  | some v => exact writeMember_of_some target present
  | none =>
    rw [writeMember_of_none target present, writeAbsent, isList, Option.getD_none]
    cases flattened with
    | true => rw [writeValue_flattened isList found, writeItems_nil]
    | false => rw [writeValue_wrapped isList found, writeItems_nil]; rfl

/-- A value other than a list leaves something in the body. -/
theorem writeValue_ne_empty {m : Member} {s : Shape} (form : HasForm g m s)
    (single : s.isList = false) (v : Value) : writeValue g m s v ≠ .ok .empty := by
  intro written
  cases form with
  | struct isStruct =>
    obtain ⟨fields, content, -, -, same⟩ := struct_of_writeValue isStruct written
    cases same
  | list isList _ =>
    exact absurd isList (Shape.isList_eq_false_iff.1 single _ _)
  | text isScalar isText =>
    obtain ⟨text, -, same⟩ := text_of_writeValue isScalar isText written
    unfold writeText at same
    split at same <;> cases same
  | boolean isBoolean _ =>
    obtain ⟨b, -, same⟩ := boolean_of_writeValue isBoolean written
    cases same

theorem writeAbsent_eq_empty {m : Member} {s : Shape} {c : Content} (single : s.isList = false)
    (written : writeAbsent m s = .ok c) : c = .empty := by
  unfold writeAbsent at written
  rw [Shape.isList] at single
  split at written
  · rename_i isList
    rw [isList] at single
    cases single
  · rename_i isList
    rw [isList] at single
    cases single
  · split at written
    · cases written
    · cases written
      rfl

/-! ## Values -/

section

variable {root : Fields}

/-- Whatever is written like the value has the same body. -/
def Determined (g : Graph) (root : Fields) (v : Value) : Prop :=
  ∀ {m : Member} {s : Shape} {w : Value} {c : Content}, Carries g root m s →
    writeValue g m s v = .ok c → writeValue g m s w = .ok c → SameBody g s v w

variable (legible : Legible g root)

include legible

theorem sameBody_of_list {m item : Member} {s element : Shape} {flattened : Bool}
    (carried : Carries g root m s) (isList : s.kind = .list item flattened)
    (found : g.shapes.get? item.target = some element) {v w : Value} {c : Content}
    (ih : ∀ u, u.PartOf v → Determined g root u) (written : writeValue g m s v = .ok c)
    (written' : writeValue g m s w = .ok c) : SameBody g s v w := by
  have single : ∀ {u d}, writeValue g (itemMember m item flattened) element u = .ok d →
      ∃ n, d = .child n ∧ n.tag? = some (itemMember m item flattened).tag :=
    child_of_item legible carried isList found
  obtain ⟨items, content, rfl, below, rfl⟩ := list_of_writeValue isList found written
  obtain ⟨items', content', rfl, below', same⟩ := list_of_writeValue isList found written'
  obtain ⟨none, pairs⟩ := children_of_writeItems single below
  obtain ⟨none', pairs'⟩ := children_of_writeItems single below'
  have children : content.children = content'.children := by
    cases flattened with
    | true => exact congrArg Content.children same
    | false =>
      have elements := List.singleton_inj.1 (congrArg Content.children same)
      exact (Node.element.inj elements).2.2
  rw [← children] at pairs'
  apply SameBody.list isList found (pairs.length_eq.trans pairs'.length_eq.symm)
  intro i a b left right
  obtain ⟨n, child, first, -⟩ := getElem?_of_forall₂ pairs left
  obtain ⟨n', child', second, -⟩ := getElem?_of_forall₂ pairs' right
  cases child.symm.trans child'
  exact ih a (.item (List.mem_of_getElem? left)) (carried.item isList found) first second

/-- Fields that are written alike agree. -/
theorem sameMember_of_writeMember {f : Fields} (held : Holds g root f) {m : Member}
    (member : m ∈ f.bodyMembers) {fields fields' : List (String × Value)}
    (ih : ∀ name v, fields.lookup name = some v → Determined g root v) {c : Content}
    (written : writeMember g fields m = .ok c) (written' : writeMember g fields' m = .ok c) :
    SameMember g m (fields.lookup m.label) (fields'.lookup m.label) := by
  obtain ⟨s, target⟩ := legible.writable.target held m member
  have carried := held.member member target
  have form := legible.writable.form carried
  cases single : s.isList with
  | true =>
    cases form with
    | @list item element flattened isList found =>
      -- Both fields are read as lists, so that an absent one meets one without items.
      rw [writeMember_of_list target isList found] at written written'
      apply SameMember.list target single
      cases present : fields.lookup m.label with
      | some v =>
        rw [present] at written
        exact ih m.label v present carried written written'
      | none =>
        rw [present] at written
        refine sameBody_of_list legible carried isList found ?_ written written'
        intro u part
        cases part with
        | item listed => cases listed
    | struct isStruct => rw [Shape.isList, isStruct] at single; cases single
    | text isScalar _ => rw [Shape.isList, isScalar] at single; cases single
    | boolean isBoolean _ => rw [Shape.isList, isBoolean] at single; cases single
  | false =>
    -- Of two fields that are written alike neither can be absent alone.
    cases present : fields.lookup m.label with
    | none =>
      rw [writeMember_of_none target present] at written
      cases writeAbsent_eq_empty single written
      cases present' : fields'.lookup m.label with
      | none => exact .absent target single
      | some w =>
        rw [writeMember_of_some target present'] at written'
        exact absurd written' (writeValue_ne_empty form single w)
    | some v =>
      rw [writeMember_of_some target present] at written
      cases present' : fields'.lookup m.label with
      | none =>
        rw [writeMember_of_none target present'] at written'
        cases writeAbsent_eq_empty single written'
        exact absurd written (writeValue_ne_empty form single v)
      | some w =>
        rw [writeMember_of_some target present'] at written'
        exact .present target single (ih m.label v present carried written written')

/-- Structures of the document that are written alike agree on their members. -/
theorem sameMembers_of_writeMembers {f : Fields} (held : Holds g root f)
    {fields fields' : List (String × Value)}
    (ih : ∀ name v, fields.lookup name = some v → Determined g root v) {c : Content}
    (written : writeMembers g fields f.bodyMembers = .ok c)
    (written' : writeMembers g fields' f.bodyMembers = .ok c) :
    ∀ m ∈ f.bodyMembers, SameMember g m (fields.lookup m.label) (fields'.lookup m.label) := by
  intro m member
  obtain ⟨d, first, second⟩ := members_agree legible held written written' m member
  exact sameMember_of_writeMember legible held member ih first second

/-- Values that are written alike have the same body. -/
theorem sameBody_of_writeValue (v : Value) : Determined g root v := by
  induction v using Value.induction_on_parts with
  | whole v ih =>
    intro m s w c carried written written'
    cases legible.writable.form carried with
    | struct isStruct =>
      obtain ⟨fields, content, rfl, below, rfl⟩ := struct_of_writeValue isStruct written
      obtain ⟨fields', content', rfl, below', same⟩ := struct_of_writeValue isStruct written'
      have elements := List.singleton_inj.1 (congrArg Content.children same)
      obtain rfl := content_of_elementOf legible carried isStruct below below' elements
      apply SameBody.struct isStruct
      exact sameMembers_of_writeMembers legible (.carried carried isStruct)
        (fun name u present => ih u (.field present)) below below'
    | list isList found =>
      exact sameBody_of_list legible carried isList found ih written written'
    | text isScalar isText =>
      obtain ⟨text, read, rfl⟩ := text_of_writeValue isScalar isText written
      obtain ⟨text', read', same⟩ := text_of_writeValue isScalar isText written'
      obtain rfl := writeText_injective same
      exact .text isScalar isText (textOf_eq_ok_iff.1 read) (textOf_eq_ok_iff.1 read')
    | boolean isBoolean _ =>
      obtain ⟨b, rfl, rfl⟩ := boolean_of_writeValue isBoolean written
      obtain ⟨b', rfl, same⟩ := boolean_of_writeValue isBoolean written'
      have texts := ofText_injective (List.singleton_inj.1 (congrArg Content.children same))
      obtain rfl := booleanText_injective texts
      exact .boolean isBoolean

end

/-! ## Documents -/

/-- A member whose step sets no attribute is written as elements. -/
theorem writesAttribute_of_stepOf {m : Member} {s : Shape} {source : Source} {op : Op}
    (target : g.shapes.get? m.target = some s) (step : StepOf g m s source op)
    (plain : op.setsAttribute = false) : m.writesAttribute g = false := by
  rw [Member.writesAttribute, target, Option.any_some]
  cases step with
  | struct isStruct => rw [Shape.isText, isStruct]; exact Bool.and_false _
  | boolean isBoolean _ => rw [Shape.isText, isBoolean]; exact Bool.and_false _
  | flattened isList _ _ => rw [Shape.isText, isList]; exact Bool.and_false _
  | wrapped isList _ _ => rw [Shape.isText, isList]; exact Bool.and_false _
  | text _ _ =>
    cases asAttribute : m.asAttribute with
    | false => exact Bool.false_and _
    | true =>
      rw [textStep, asAttribute, if_pos rfl, Op.setsAttribute] at plain
      cases plain

theorem writesAttribute_of_step {m : Member} {op : Op} (step : MemberStepOf g m op)
    (plain : op.setsAttribute = false) : m.writesAttribute g = false := by
  cases step with
  | always target _ step => exact writesAttribute_of_stepOf target step plain
  | ifPresent target _ step =>
    rw [Op.setsAttribute, Op.anySetsAttribute, Op.anySetsAttribute, Bool.or_false] at plain
    exact writesAttribute_of_stepOf target step plain

/-- A document with elements is written of the members of its root. -/
theorem root_of_run {p : Program} {operation root : String} {payload : Option String} {f : Fields}
    (document : DocumentOf g operation root payload f p) {request : Option Value} {forest : Forest}
    (ran : p.run request = .ok (.document forest)) (some : forest ≠ []) :
    ∃ fields present content, request.getD (.struct []) = .struct fields ∧
      rootValue payload fields = Option.some (.struct present) ∧
      writeMembers g present f.bodyMembers = .ok content ∧ content.children = forest := by
  rw [run_of_documentOf document] at ran
  obtain ⟨fields, given, made⟩ := bind_eq_ok_iff.1 ran
  obtain ⟨present, content, value, written, same⟩ := content_of_documentBody some made
  exact ⟨fields, present, content, requestFields_eq_ok_iff.1 given, value, written, same⟩

/-- The members of a root write no attributes. -/
theorem attributes_of_root {root : Fields} (legible : Legible g root) {ops : List Op}
    (steps : List.Forall₂ (MemberStepOf g) root.bodyMembers ops)
    (plain : Op.anySetsAttribute ops = false) {fields : List (String × Value)} {c : Content}
    (written : writeMembers g fields root.bodyMembers = .ok c) : c.attributes = [] := by
  obtain ⟨owners, -⟩ := attributes_of_writeMembers (legible.clear.apart .root)
    (fun _ member _ => ownedBy_of_writeMember legible .root member) written
  refine List.eq_nil_iff_forall_not_mem.2 fun a member => ?_
  obtain ⟨m, listed, isAttribute, -⟩ := owners a member
  obtain ⟨op, listedOp, step⟩ := exists_of_mem_left steps listed
  have noAttribute := Op.anySetsAttribute_eq_false_iff.1 plain op listedOp
  rw [writesAttribute_of_step step noAttribute] at isAttribute
  cases isAttribute

/-- Requests whose documents have the same bytes agree on all that the body carries. -/
theorem sameBody_of_serialize {j : Json} (loaded : Graph.load j = .ok g) {o : Operation}
    {p : Program} (compiled : Compile.program g o = .ok p) {root : String}
    {payload : Option String} (plan : p.plan = .document root payload) {s : Shape} {f : Fields}
    (found : g.shapes.get? root = some s) (isStruct : s.kind = .struct f) (named : p.Named)
    (clear : Unambiguous g f) {declared declared' : Bool} {request request' : Option Value}
    {bytes : ByteArray} (written : p.serialize declared request = .ok bytes)
    (written' : p.serialize declared' request' = .ok bytes) (nonempty : bytes ≠ .empty) :
    ∃ fields fields' v v',
      request.getD (.struct []) = .struct fields ∧ rootValue payload fields = some v ∧
      request'.getD (.struct []) = .struct fields' ∧ rootValue payload fields' = some v' ∧
      SameBody g s v v' := by
  have isDocument : needsDocument p = true := by rw [needsDocument, plan]
  obtain ⟨forest, ran, elements, proper, rfl⟩ :=
    document_of_serialize named isDocument written nonempty
  obtain ⟨forest', ran', elements', proper', same⟩ :=
    document_of_serialize named isDocument written' nonempty
  obtain rfl := forest_of_writeDocument proper proper' elements elements'
    (String.toByteArray_inj.1 same)
  have document := documentOf_of_plan compiled plan found isStruct
  obtain ⟨fields, present, content, given, value, below, rfl⟩ := root_of_run document ran elements
  obtain ⟨fields', present', content', given', value', below', children⟩ :=
    root_of_run document ran' elements'
  refine ⟨fields, fields', _, _, given, value, given', value', .struct isStruct ?_⟩
  cases document with
  | nothing _ => cases plan
  | document closed own steps _ plain =>
    have legible : Legible g f :=
      ⟨writable_of_closed closed own steps, clear, itemsUnnamed_of_load loaded⟩
    have none := attributes_of_root legible steps plain below
    have none' := attributes_of_root legible steps plain below'
    have contents : content' = content := by
      cases content; cases content'
      cases none; cases none'; cases children
      rfl
    rw [contents] at below'
    exact sameMembers_of_writeMembers legible .root
      (fun _ v _ => sameBody_of_writeValue legible v) below below'

/-- The shape of a folder. -/
def folderShape : Shape := ⟨"Folder", .struct folderFields, some ⟨"urn:folders", none⟩, false⟩

/-- All that a request to put a folder carries. -/
def folderMembers : List (Member × Shape) :=
  let text : Shape := ⟨"Name", .scalar .string, none, false⟩
  let inner : Member :=
    ⟨some "Inner", "Folders", some "Folder", .body, false, false, none, false, false⟩
  [(⟨some "Root", "Folder", none, .body, true, false, none, false, false⟩, folderShape),
   (⟨some "Id", "Name", some "id", .body, false, true, none, false, false⟩, text),
   (⟨some "Owner", "Name", none, .body, true, false, none, false, false⟩, text),
   (inner, ⟨"Folders", .list (.element "Folder") true, none, false⟩),
   (inner, folderShape)]

theorem mem_folderMembers {m : Member} {s : Shape}
    (carried : Carries folderGraph putFolderFields m s) : (m, s) ∈ folderMembers :=
  mem_of_carries (by decide) (by decide) carried

theorem folderFields_of_carries {m : Member} {s : Shape} {f : Fields}
    (carried : Carries folderGraph putFolderFields m s) (isStruct : s.kind = .struct f) :
    f = folderFields := by
  have only : ∀ e ∈ folderMembers, ∀ f, e.2.kind = .struct f → f = folderFields := by
    simp [folderMembers, folderShape, eq_comm]
  exact only _ (mem_folderMembers carried) f isStruct

theorem fields_of_holds {f : Fields} (held : Holds folderGraph putFolderFields f) :
    f = putFolderFields ∨ f = folderFields := by
  cases held with
  | root => exact .inl rfl
  | carried above isStruct => exact .inr (folderFields_of_carries above isStruct)

theorem unambiguous_putFolder : Unambiguous folderGraph putFolderFields := by
  constructor
  · intro f held
    rcases fields_of_holds held with rfl | rfl <;> decide
  · intro f held
    rcases fields_of_holds held with rfl | rfl <;> decide
  · intro m s f d carried isStruct declared m' member attr
    have apart : ∀ e ∈ folderMembers, ∀ d ∈ (namespaceFor e.1 e.2).toList,
        ∀ m' ∈ folderFields.bodyMembers, m'.tag ≠ d.name := by decide
    rw [folderFields_of_carries carried isStruct] at member
    exact apart _ (mem_folderMembers carried) d (Option.mem_toList.2 declared) m' member
  · intro m item s element flattened carried isList found
    have whole : ∀ e ∈ folderMembers, ∀ e' ∈ carriedBy folderGraph e.1 e.2,
        e.2.isList = true → e'.2.isFlattened = false := by decide
    apply whole _ (mem_folderMembers carried) (itemMember m item flattened, element)
    · simp only [carriedBy, isList, found, Option.toList_some, List.map_cons]
      exact List.mem_cons_self
    · rw [Shape.isList, isList]
  · intro f s held m member found isList
    have plain : ∀ m ∈ putFolderFields.bodyMembers ++ folderFields.bodyMembers,
        ∀ s ∈ (folderGraph.shapes.get? m.target).toList, s.isList = true →
          m.xmlAttribute = false := by decide
    refine plain m (List.mem_append.2 ?_) s (Option.mem_toList.2 found) isList
    rcases fields_of_holds held with rfl | rfl
    · exact .inl member
    · exact .inr member

/-- Two requests to put one folder on two hosts. -/
theorem sameBody_of_serialize_folder :
    ∃ fields fields' v v',
      folderRequest "a" = .struct fields ∧ rootValue none fields = some v ∧
      folderRequest "b" = .struct fields' ∧ rootValue none fields' = some v' ∧
      SameBody folderGraph ⟨"Request", .struct putFolderFields, none, false⟩ v v' :=
  sameBody_of_serialize load_folderDescription program_putFolder rfl (by decide) rfl
    named_folderProgram unambiguous_putFolder (serialize_folderRequest "a")
    (serialize_folderRequest "b") (by decide)

end WireBody.Direct
