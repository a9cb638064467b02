import WireBody.Proofs.Compile.Closure

/-!
# Programs cover what their documents carry

The routine of the root has a step for each of its members, and these steps lead to the routines of
whatever the members hold.  So whatever a document carries has a step somewhere in the program, and
since only some values have steps, a document that was compiled carries no others.

Main statement: `writable_of_closed`.
-/

set_option autoImplicit false

namespace WireBody.Compile

open WireBody.Program
open WireBody.Service

/-- The values that can stand in a document: structures, lists, texts, bytes and truth values, the
last not as attributes. -/
inductive HasForm (g : Graph) (m : Member) (s : Shape) : Prop
  | struct {f : Fields} : s.kind = .struct f → HasForm g m s
  | list {item : Member} {element : Shape} {flattened : Bool} :
      s.kind = .list item flattened → g.shapes.get? item.target = some element → HasForm g m s
  | text {k : Scalar} : s.kind = .scalar k → k.isText = true → HasForm g m s
  | boolean : s.kind = .scalar .boolean → m.asAttribute = false → HasForm g m s

/-- A structure whose documents can be written: the members of the structures in it point to shapes,
and all that it carries has a form. -/
structure Writable (g : Graph) (root : Fields) : Prop where
  target : ∀ {f : Fields}, Holds g root f → ∀ m ∈ f.bodyMembers,
    ∃ s, g.shapes.get? m.target = some s
  form : ∀ {m : Member} {s : Shape}, Carries g root m s → HasForm g m s

/-- There is a step for a value of shape `s` that stands for `m`, and the routines that it leads to
are there. -/
def Covered (g : Graph) (rs : NameMap Routine) (m : Member) (s : Shape) : Prop :=
  ∃ source op, StepOf g m s source op ∧ ∀ callee ∈ op.references, rs.contains callee = true

theorem Covered.hasForm {g : Graph} {rs : NameMap Routine} {m : Member} {s : Shape}
    (covered : Covered g rs m s) : HasForm g m s := by
  obtain ⟨source, op, step, -⟩ := covered
  cases step with
  | struct isStruct => exact .struct isStruct
  | text isScalar isText => exact .text isScalar isText
  | boolean isBoolean plain => exact .boolean isBoolean plain
  | flattened isList found _ => exact .list isList found
  | wrapped isList found _ => exact .list isList found

theorem references_forEach (wrapper : Option String) (source : Source) (op : Op) :
    (Op.forEach wrapper source [op]).references = op.references := by
  rw [Op.references, Op.allReferences, Op.allReferences, List.append_nil]

theorem references_ifPresent (field : String) (op : Op) :
    (Op.ifPresent field [op]).references = op.references := by
  rw [Op.references, Op.allReferences, Op.allReferences, List.append_nil]

theorem mem_allReferences {op : Op} {ops : List Op} {callee : String} (step : op ∈ ops)
    (referred : callee ∈ op.references) : callee ∈ Op.allReferences ops := by
  induction ops with
  | nil => cases step
  | cons first rest ih =>
    rw [Op.allReferences, List.mem_append]
    rcases List.mem_cons.1 step with rfl | step
    · exact .inl referred
    · exact .inr (ih step)

theorem exists_of_mem_allReferences {ops : List Op} {callee : String}
    (referred : callee ∈ Op.allReferences ops) : ∃ op ∈ ops, callee ∈ op.references := by
  induction ops with
  | nil => cases referred
  | cons first rest ih =>
    rw [Op.allReferences, List.mem_append] at referred
    rcases referred with referred | referred
    · exact ⟨first, List.mem_cons_self, referred⟩
    · obtain ⟨op, step, referred⟩ := ih referred
      exact ⟨op, List.mem_cons_of_mem first step, referred⟩

variable {g : Graph} {rs : NameMap Routine}

/-- The members that the steps of a routine write are covered. -/
theorem covered_of_steps {members : List Member} {ops : List Op}
    (steps : List.Forall₂ (MemberStepOf g) members ops)
    (below : ∀ callee ∈ Op.allReferences ops, rs.contains callee = true) {m : Member}
    (member : m ∈ members) : ∃ s, g.shapes.get? m.target = some s ∧ Covered g rs m s := by
  obtain ⟨op, listed, step⟩ := exists_of_mem_left steps member
  cases step with
  | @always s op found _ step =>
    exact ⟨s, found, _, op, step, fun callee referred =>
      below callee (mem_allReferences listed referred)⟩
  | @ifPresent s op found _ step =>
    refine ⟨s, found, _, op, step, fun callee referred => below callee ?_⟩
    exact mem_allReferences listed (references_ifPresent m.label op ▸ referred)

/-- The members of a structure that is covered are covered in turn. -/
theorem Covered.members (closed : Closed g rs) {m : Member} {s : Shape} {f : Fields}
    (covered : Covered g rs m s) (stored : g.shapes.get? s.name = some s)
    (isStruct : s.kind = .struct f) {m' : Member} (member : m' ∈ f.bodyMembers) :
    ∃ s', g.shapes.get? m'.target = some s' ∧ Covered g rs m' s' := by
  obtain ⟨source, op, step, present⟩ := covered
  cases step with
  | struct _ =>
    obtain ⟨r, -, steps, below⟩ := closed.routine stored isStruct
      (present s.name (by rw [Op.references]; exact List.mem_singleton_self _))
    exact covered_of_steps steps below member
  | text isScalar _ => rw [isStruct] at isScalar; cases isScalar
  | boolean isScalar _ => rw [isStruct] at isScalar; cases isScalar
  | flattened isList _ _ => rw [isStruct] at isList; cases isList
  | wrapped isList _ _ => rw [isStruct] at isList; cases isList

/-- So are the items of a list. -/
theorem Covered.items {m item : Member} {s element : Shape} {flattened : Bool}
    (covered : Covered g rs m s) (isList : s.kind = .list item flattened)
    (found : g.shapes.get? item.target = some element) :
    Covered g rs (itemMember m item flattened) element := by
  obtain ⟨source, op, step, present⟩ := covered
  cases step with
  | struct isStruct => rw [isList] at isStruct; cases isStruct
  | text isScalar _ => rw [isList] at isScalar; cases isScalar
  | boolean isScalar _ => rw [isList] at isScalar; cases isScalar
  | flattened isList' found' inner =>
    rw [isList] at isList'
    cases isList'
    cases found.symm.trans found'
    exact ⟨.item, _, inner, references_forEach none source _ ▸ present⟩
  | wrapped isList' found' inner =>
    rw [isList] at isList'
    cases isList'
    cases found.symm.trans found'
    exact ⟨.item, _, inner, references_forEach (some m.tag) source _ ▸ present⟩

/-- All that the documents of a structure carry is covered, if its routine is closed. -/
theorem covered_of_carries (closed : Closed g rs) {root : String} {f : Fields} {r : Routine}
    (own : rs.get? root = some r) (steps : List.Forall₂ (MemberStepOf g) f.bodyMembers r.ops)
    {m : Member} {s : Shape} (carried : Carries g f m s) : Covered g rs m s := by
  -- The induction follows the way from the root; each turn is a member or an item.
  induction carried with
  | @top m s member found =>
    obtain ⟨s', found', covered⟩ := covered_of_steps steps (closed.closed own) member
    cases found.symm.trans found'
    exact covered
  | inside above isStruct member found ih =>
    obtain ⟨s', found', covered⟩ := ih.members closed above.stored isStruct member
    cases found.symm.trans found'
    exact covered
  | item above isList found ih => exact ih.items isList found

/-- So are the members of its structures. -/
theorem covered_of_holds (closed : Closed g rs) {root : String} {f : Fields} {r : Routine}
    (own : rs.get? root = some r) (steps : List.Forall₂ (MemberStepOf g) f.bodyMembers r.ops)
    {f' : Fields} (held : Holds g f f') {m : Member} (member : m ∈ f'.bodyMembers) :
    ∃ s, g.shapes.get? m.target = some s ∧ Covered g rs m s := by
  cases held with
  | root => exact covered_of_steps steps (closed.closed own) member
  | carried above isStruct =>
    exact (covered_of_carries closed own steps above).members closed above.stored isStruct member

/-- The documents of a structure whose routine is closed can be written. -/
theorem writable_of_closed (closed : Closed g rs) {root : String} {f : Fields} {r : Routine}
    (own : rs.get? root = some r) (steps : List.Forall₂ (MemberStepOf g) f.bodyMembers r.ops) :
    Writable g f := by
  constructor
  · intro f' held m member
    obtain ⟨s, found, -⟩ := covered_of_holds closed own steps held member
    exact ⟨s, found⟩
  · intro m s carried
    exact (covered_of_carries closed own steps carried).hasForm

end WireBody.Compile
