import WireBody.Proofs.Compile.Coverage
import WireBody.Proofs.Service.Described
import WireBody.Proofs.Service.Supported

/-!
# Which operations have programs

Compiling succeeds exactly on the operations whose bodies can be made of elements, texts and truth
values.  That a program covers what its documents carry shows one direction.  For the other the
work list never meets a structure that fails, since all that it is given is reached from the root.

Main statement: `program_ok_iff_supported`.
-/

set_option autoImplicit false

namespace WireBody.Compile

open WireBody.Program
open WireBody.Service

variable {g : Graph}

/-! ## From steps to the description -/

/-- What has a step leads to an end that can be written. -/
theorem terminal_of_stepOf {m : Member} {s : Shape} {source : Source} {op : Op}
    (step : StepOf g m s source op) :
    ∃ flat e, LeadsTo g s flat e ∧ Terminal (m.asAttribute && flat) e := by
  induction step with
  | @struct m s source f isStruct =>
    exact ⟨true, s, .here (by rw [Shape.isList, isStruct]), .struct isStruct⟩
  | @text m s source k isScalar isText =>
    have text : s.isText = true := Shape.isText_iff.2 ⟨k, isScalar, isText⟩
    exact ⟨true, s, .here (Shape.not_list_of_isText text), .text text⟩
  | @boolean m s source isBoolean plain =>
    refine ⟨true, s, .here (by rw [Shape.isList, isBoolean]), .boolean isBoolean ?_⟩
    rw [plain, Bool.false_and]
  | flattened isList found _ ih =>
    obtain ⟨flat, e, leads, terminal⟩ := ih
    exact ⟨true && flat, e, .item isList found leads, terminal⟩
  | @wrapped m item s element source op isList found _ ih =>
    obtain ⟨flat, e, leads, terminal⟩ := ih
    refine ⟨false && flat, e, .item isList found leads, ?_⟩
    rw [Bool.false_and, Bool.and_false]
    cases terminal with
    | struct isStruct => exact .struct isStruct
    | text isText => exact .text isText
    | boolean isBoolean _ => exact .boolean isBoolean rfl

/-- A step sets an attribute exactly if only flattened lists lead from an attribute to a text. -/
theorem setsAttribute_iff {m : Member} {s : Shape} {source : Source} {op : Op}
    (step : StepOf g m s source op) :
    op.setsAttribute = true ↔
      m.asAttribute = true ∧ ∃ e, LeadsTo g s true e ∧ e.isText = true := by
  -- A step that writes an element, for a shape that is neither a list nor a text.
  have element {m : Member} {s : Shape} {op : Op} (writes : op.setsAttribute = false)
      (single : s.isList = false) (other : s.isText = false) : op.setsAttribute = true ↔
        m.asAttribute = true ∧ ∃ e, LeadsTo g s true e ∧ e.isText = true := by
    rw [writes]
    simp only [Bool.false_eq_true, false_iff, not_and, not_exists]
    intro _ e leads isText
    rw [(leads.eq_of_not_list single).2, other] at isText
    cases isText
  induction step with
  | struct isStruct =>
    exact element rfl (by rw [Shape.isList, isStruct]) (by rw [Shape.isText, isStruct])
  | boolean isBoolean _ =>
    exact element rfl (by rw [Shape.isList, isBoolean]) (by rw [Shape.isText, isBoolean]; rfl)
  | @text m s source k isScalar isText =>
    have text : s.isText = true := Shape.isText_iff.2 ⟨k, isScalar, isText⟩
    have leads : LeadsTo g s true s := .here (Shape.not_list_of_isText text)
    unfold textStep
    split
    · rename_i attr
      exact iff_of_true rfl ⟨attr, s, leads, text⟩
    · rename_i plain
      exact iff_of_false Bool.false_ne_true fun h => plain h.1
  | flattened isList found _ ih =>
    rw [Op.setsAttribute, Op.anySetsAttribute, Op.anySetsAttribute, Bool.or_false]
    refine ih.trans (and_congr_right fun _ => exists_congr fun e => and_congr_left fun _ => ?_)
    rw [leadsTo_list_iff isList found]
    simp
  | wrapped isList found _ _ =>
    rw [Op.setsAttribute]
    refine iff_of_false Bool.false_ne_true ?_
    rintro ⟨-, e, leads, -⟩
    obtain ⟨flat, same, -⟩ := (leadsTo_list_iff isList found).1 leads
    cases same

/-! ## From the description to steps -/

/-- Where lists come to an end that can be written there is a step, if the bound admits them. -/
theorem stepFor_ok (labelled : g.Labelled) {s e : Shape} {flat : Bool} (leads : LeadsTo g s flat e)
    (stored : g.shapes.get? s.name = some s) {bound : Nat} {m : Member} (source : Source)
    (terminal : Terminal (m.asAttribute && flat) e) (bounded : g.bottomsOut bound s = true) :
    ∃ op, stepFor g bound m s source = .ok op := by
  induction leads generalizing bound m source with
  | @here s single =>
    unfold stepFor
    cases terminal with
    | struct isStruct => exact ⟨_, by rw [isStruct]⟩
    | text isText =>
      obtain ⟨k, isScalar, isText⟩ := Shape.isText_iff.1 isText
      rw [isScalar]
      cases k <;> first | exact ⟨_, rfl⟩ | cases isText
    | boolean isBoolean plain =>
      rw [Bool.and_true] at plain
      rw [isBoolean]
      exact ⟨.boolean m.tag source, by simp [scalarStep, plain]⟩
  | @item s next e item flattened flat isList found _ ih =>
    have nextStored := g.shape_named found ▸ found
    obtain ⟨rest, rfl, below⟩ := Graph.exists_bound_of_item isList found bounded
    unfold stepFor
    simp only [isList, shapeOf_eq_ok_iff.2 found]
    cases flattened with
    | true =>
      obtain ⟨op, compiled⟩ := ih nextStored .item terminal below
      exact ⟨_, by rw [if_pos rfl, compiled]; rfl⟩
    | false =>
      -- The list's own member has no name, so it is no attribute.
      have plain : item.asAttribute = false :=
        Member.asAttribute_of_unnamed (labelled.items stored item false isList)
      rw [Bool.false_and, Bool.and_false, ← Bool.false_and flat, ← plain] at terminal
      obtain ⟨op, compiled⟩ := ih nextStored .item terminal below
      exact ⟨_, by rw [if_neg Bool.false_ne_true, compiled]; rfl⟩

theorem memberStep_ok (sound : g.Sound) (labelled : g.Labelled) {m : Member}
    (named : m.name.isSome = true) (supported : Supported g m) :
    ∃ op, memberStep g m = .ok op := by
  obtain ⟨s, flat, e, found, leads, terminal⟩ := supported
  rw [← Member.asAttribute_of_named named] at terminal
  have compiled (source : Source) : ∃ op, stepFor g g.listBound m s source = .ok op :=
    stepFor_ok labelled leads (g.shape_named found ▸ found) source terminal (sound.bounded found)
  unfold memberStep
  rw [shapeOf_eq_ok_iff.2 found]
  simp only
  split
  · exact compiled _
  · exact map_ok_iff.2 (compiled _)

theorem routineOf_ok (sound : g.Sound) (labelled : g.Labelled) {name : String} {s : Shape}
    {f : Fields} (found : g.shapes.get? name = some s) (isStruct : s.kind = .struct f)
    (supported : ∀ m ∈ f.bodyMembers, Supported g m) : ∃ r, routineOf g name = .ok r := by
  unfold routineOf
  rw [shapeOf_eq_ok_iff.2 found]
  simp only [isStruct]
  refine map_ok_iff.2 (mapM_ok_iff.2 fun m member => mapError_ok_iff.2 ?_)
  have named := labelled.bodyMembers found isStruct m member
  exact memberStep_ok sound labelled named (supported m member)

/-! ## The work list -/

/-- What a step refers to is a structure of the document. -/
theorem holds_of_reference {root : Fields} {m : Member} {s : Shape} {source : Source} {op : Op}
    (step : StepOf g m s source op) (carried : Carries g root m s) {callee : String}
    (referred : callee ∈ op.references) :
    ∃ s' f, g.shapes.get? callee = some s' ∧ s'.kind = .struct f ∧ Holds g root f := by
  induction step with
  | @struct m s source f isStruct =>
    rw [Op.references, List.mem_singleton] at referred
    exact ⟨s, f, referred ▸ carried.stored, isStruct, .carried carried isStruct⟩
  | text _ _ =>
    unfold textStep at referred
    split at referred <;> cases referred
  | boolean _ _ => cases referred
  | flattened isList found _ ih =>
    rw [references_forEach] at referred
    exact ih (carried.item isList found) referred
  | wrapped isList found _ ih =>
    rw [references_forEach] at referred
    exact ih (carried.item isList found) referred

theorem holds_of_memberReference {root f : Fields} (held : Holds g root f) {m : Member}
    (member : m ∈ f.bodyMembers) {op : Op} (step : MemberStepOf g m op) {callee : String}
    (referred : callee ∈ op.references) :
    ∃ s' f', g.shapes.get? callee = some s' ∧ s'.kind = .struct f' ∧ Holds g root f' := by
  cases step with
  | always found _ step => exact holds_of_reference step (held.member member found) referred
  | ifPresent found _ step =>
    rw [references_ifPresent] at referred
    exact holds_of_reference step (held.member member found) referred

/-! ## Documents -/

theorem carries_of_holds {root f : Fields} (held : Holds g root f) {n : String} {s : Shape}
    (found : g.shapes.get? n = some s) (isStruct : s.kind = .struct root) :
    ∃ n s, g.shapes.get? n = some s ∧ s.kind = .struct f := by
  cases held with
  | root => exact ⟨n, s, found, isStruct⟩
  | carried above isStruct' => exact ⟨_, _, above.stored, isStruct'⟩

/-- The routines of a structure are worked out if all that it leads to is supported. -/
theorem routines_ok (sound : g.Sound) (labelled : g.Labelled) {root : String} {s : Shape}
    {f : Fields} (found : g.shapes.get? root = some s) (isStruct : s.kind = .struct f)
    (supported : ∀ {f' : Fields}, Holds g f f' → ∀ m ∈ f'.bodyMembers, Supported g m) :
    ∃ rs, routines g root = .ok rs := by
  have gathered : Gathered g (fun name => ∃ s f', g.shapes.get? name = some s ∧
      s.kind = .struct f' ∧ Holds g f f') (routines g root) := by
    refine gathered_of_root ?_ ⟨s, f, found, isStruct, .root⟩
    rintro name r ⟨s, f', found, isStruct, held⟩ compiled callee referred
    obtain ⟨s', f'', found', isStruct', steps⟩ := steps_of_routineOf compiled
    cases found.symm.trans found'
    cases isStruct.symm.trans isStruct'
    obtain ⟨op, listed, referred⟩ := exists_of_mem_allReferences referred
    obtain ⟨m, member, step⟩ := exists_of_mem_right steps listed
    exact holds_of_memberReference held member step referred
  cases worked : routines g root with
  | ok rs => exact ⟨rs, rfl⟩
  | error e =>
    rw [worked] at gathered
    obtain ⟨name, ⟨s, f', found, isStruct, held⟩, failed⟩ := gathered
    obtain ⟨r, compiled⟩ := routineOf_ok sound labelled found isStruct (supported held)
    rw [failed] at compiled
    cases compiled

theorem setsAttribute_memberStep_iff {m : Member} {op : Op} (step : MemberStepOf g m op) :
    op.setsAttribute = true ↔ m.asAttribute = true ∧
      ∃ s e, g.shapes.get? m.target = some s ∧ LeadsTo g s true e ∧ e.isText = true := by
  have unique {s : Shape} (found : g.shapes.get? m.target = some s) :
      (∃ e, LeadsTo g s true e ∧ e.isText = true) ↔
        ∃ s e, g.shapes.get? m.target = some s ∧ LeadsTo g s true e ∧ e.isText = true := by
    simp [found]
  cases step with
  | always found _ step => rw [setsAttribute_iff step, unique found]
  | ifPresent found _ step =>
    rw [Op.setsAttribute, Op.anySetsAttribute, Op.anySetsAttribute, Bool.or_false,
      setsAttribute_iff step, unique found]

/-- A routine sets an attribute exactly if a text of the members is one. -/
theorem anySetsAttribute_iff {members : List Member} {ops : List Op}
    (steps : List.Forall₂ (MemberStepOf g) members ops) :
    Op.anySetsAttribute ops = true ↔ ∃ m ∈ members, m.asAttribute = true ∧
      ∃ s e, g.shapes.get? m.target = some s ∧ LeadsTo g s true e ∧ e.isText = true := by
  induction steps with
  | nil => simp [Op.anySetsAttribute]
  | cons step _ ih =>
    rw [Op.anySetsAttribute, Bool.or_eq_true, ih, setsAttribute_memberStep_iff step,
      List.exists_mem_cons_iff]

/-- A routine sets no attribute exactly if no text of the members is one. -/
theorem plain_iff {members : List Member} (named : ∀ m ∈ members, m.name.isSome = true)
    {ops : List Op} (steps : List.Forall₂ (MemberStepOf g) members ops) :
    Op.anySetsAttribute ops = false ↔
      ∀ m ∈ members, m.xmlAttribute = true → ∀ {s e : Shape},
        g.shapes.get? m.target = some s → LeadsTo g s true e → e.isText = false := by
  rw [← Bool.not_eq_true, anySetsAttribute_iff steps]
  constructor
  · intro none m member attr s e found leads
    rw [← Member.asAttribute_of_named (named m member)] at attr
    exact Bool.eq_false_iff.2 fun isText => none ⟨m, member, attr, s, e, found, leads, isText⟩
  · rintro plain ⟨m, member, attr, s, e, found, leads, isText⟩
    rw [Member.asAttribute_of_named (named m member)] at attr
    rw [plain m member attr found leads] at isText
    cases isText

/-- A structure without body members leads to no other. -/
theorem eq_root_of_holds {root f : Fields} (none : root.bodyMembers = []) (held : Holds g root f) :
    f = root := by
  have nothing {m : Member} {s : Shape} (carried : Carries g root m s) : False := by
    induction carried with
    | top member _ =>
      rw [none] at member
      cases member
    | inside _ _ _ _ ih => exact ih
    | item _ _ _ ih => exact ih
  cases held with
  | root => rfl
  | carried above _ => exact (nothing above).elim

section Documents

variable {operation root : String} {payload : Option String} {s : Shape} {f : Fields}

/-- What has a program is supported. -/
theorem supportedDocument_of_documentOf (labelled : g.Labelled)
    (found : g.shapes.get? root = some s) (isStruct : s.kind = .struct f) {p : Program}
    (made : DocumentOf g operation root payload f p) : SupportedDocument g f := by
  cases made with
  | nothing none =>
    constructor
    · intro f' held m member
      rw [eq_root_of_holds none held, none] at member
      cases member
    · intro m member
      rw [none] at member
      cases member
  | document closed own steps _ plain =>
    constructor
    · intro f' held m member
      obtain ⟨s', target, source, op, step, -⟩ := covered_of_holds closed own steps held member
      obtain ⟨n, t, stored, isStruct'⟩ := carries_of_holds held found isStruct
      have named := labelled.bodyMembers stored isStruct' m member
      obtain ⟨flat, e, leads, terminal⟩ := terminal_of_stepOf step
      rw [Member.asAttribute_of_named named] at terminal
      exact ⟨s', flat, e, target, leads, terminal⟩
    · exact (plain_iff (labelled.bodyMembers found isStruct) steps).1 plain

/-- A supported document has a program. -/
theorem documentProgram_ok (sound : g.Sound) (labelled : g.Labelled)
    (found : g.shapes.get? root = some s) (isStruct : s.kind = .struct f)
    (supported : SupportedDocument g f) :
    ∃ p, documentProgram g operation root payload = .ok p := by
  obtain ⟨rs, worked⟩ := routines_ok sound labelled found isStruct supported.members
  obtain ⟨closed, r, own⟩ := closed_of_routines worked
  obtain ⟨s', f', found', isStruct', steps⟩ := steps_of_routineOf (closed.compiled own)
  cases found.symm.trans found'
  cases isStruct.symm.trans isStruct'
  have elements : r.setsAttribute = false :=
    (plain_iff (labelled.bodyMembers found isStruct) steps).2 supported.plain
  unfold documentProgram
  simp only [worked, own, elements]
  split
  · exact ⟨_, rfl⟩
  · exact ⟨_, rfl⟩

end Documents

/-! ## Operations -/

section Payloads

variable {operation input : String} {m : Member} {t : Shape}

theorem streamed_of_target (target : g.shapes.get? m.target = some t) :
    streamed g m = .ok (m.streaming || t.streaming) := by
  unfold streamed Graph.isStreaming Graph.shape
  rw [target]
  cases m.streaming <;> rfl

theorem payloadProgram_of_streamed (target : g.shapes.get? m.target = some t)
    (whole : (m.streaming || t.streaming) = true) :
    payloadProgram g operation input m = .ok (rawProgram operation m.label) := by
  rw [payloadProgram, streamed_of_target target, whole]

/-- A payload that is a text is sent as it is, streamed or not. -/
theorem payloadProgram_of_isText (target : g.shapes.get? m.target = some t)
    (isText : t.isText = true) :
    payloadProgram g operation input m = .ok (rawProgram operation m.label) := by
  cases whole : m.streaming || t.streaming with
  | true => exact payloadProgram_of_streamed target whole
  | false =>
    obtain ⟨k, isScalar, isText⟩ := Shape.isText_iff.1 isText
    rw [payloadProgram, streamed_of_target target, whole]
    simp only [shapeOf_eq_ok_iff.2 target, isScalar]
    cases k <;> first | rfl | cases isText

theorem payloadProgram_ok_of_supported (sound : g.Sound) (labelled : g.Labelled)
    (target : g.shapes.get? m.target = some t) {root : Fields} (isStruct : t.kind = .struct root)
    (supported : SupportedDocument g root) :
    ∃ p, payloadProgram g operation input m = .ok p := by
  cases whole : m.streaming || t.streaming with
  | true => exact ⟨_, payloadProgram_of_streamed target whole⟩
  | false =>
    rw [payloadProgram, streamed_of_target target, whole]
    simp only [shapeOf_eq_ok_iff.2 target, isStruct]
    exact documentProgram_ok sound labelled (g.shape_named target ▸ target) isStruct supported

end Payloads

variable {o : Operation}

theorem supportedOperation_of_program (sound : g.Sound) (labelled : g.Labelled) {p : Program}
    (compiled : program g o = .ok p) : SupportedOperation g o := by
  cases programOf_of_program compiled with
  | noInput none => exact .noInput none
  | @input input s f _ given found isStruct undeclared made =>
    have own : f.payload = none := by
      by_contra declared
      obtain ⟨m, member⟩ := sound.payload found isStruct (Option.isSome_iff_ne_none.2 declared)
      rw [undeclared] at member
      cases member
    exact .document given found isStruct (.input own)
      (supportedDocument_of_documentOf labelled found isStruct made)
  | @raw input s f m given found isStruct declared sent =>
    rcases sent with streaming | ⟨t, target, streaming | isText⟩
    · exact .streamed given found isStruct declared (.inl streaming)
    · exact .streamed given found isStruct declared (.inr ⟨t, target, streaming⟩)
    · exact .text given found isStruct declared target (Shape.isText_iff.2 isText)
  | payload given found isStruct declared _ target _ isStruct' made =>
    exact .document given found isStruct (.payload declared target isStruct')
      (supportedDocument_of_documentOf labelled (g.shape_named target ▸ target) isStruct' made)

theorem program_ok_of_supportedOperation (sound : g.Sound) (labelled : g.Labelled)
    (supported : SupportedOperation g o) : ∃ p, program g o = .ok p := by
  -- With a payload the program is that of the member, which leads to a shape.
  have payload {input : String} {s : Shape} {f : Fields} {m : Member}
      (given : o.input = some input) (found : g.shapes.get? input = some s)
      (isStruct : s.kind = .struct f) (declared : f.payloadMember? = some m) :
      program g o = payloadProgram g o.name s.name m := by
    simp only [program, given, shapeOf_eq_ok_iff.2 found, isStruct, declared]
  cases supported with
  | noInput none => exact ⟨_, by rw [program, none]⟩
  | @streamed input s f m given found isStruct declared streaming =>
    obtain ⟨t, target⟩ := sound.members found isStruct m (Fields.mem_of_payloadMember? declared)
    have whole : (m.streaming || t.streaming) = true := by
      rw [Bool.or_eq_true]
      rcases streaming with streaming | ⟨t', target', whole⟩
      · exact .inl streaming
      · cases target.symm.trans target'
        exact .inr whole
    rw [payload given found isStruct declared, payloadProgram_of_streamed target whole]
    exact ⟨_, rfl⟩
  | text given found isStruct declared target isText =>
    rw [payload given found isStruct declared, payloadProgram_of_isText target isText]
    exact ⟨_, rfl⟩
  | @document input s f root given found isStruct above supported =>
    cases above with
    | input undeclared =>
      have none : f.payloadMember? = none := by
        rw [Fields.payloadMember?, undeclared, Option.bind_none]
      simp only [program, given, shapeOf_eq_ok_iff.2 found, isStruct, none]
      exact documentProgram_ok sound labelled found isStruct supported
    | payload declared target isStruct' =>
      rw [payload given found isStruct declared]
      exact payloadProgram_ok_of_supported sound labelled target isStruct' supported

/-- In a graph that was checked, and whose structures alone name their members, an operation has a
program exactly if its bodies are supported. -/
theorem program_ok_iff_supported (checked : g.check = .ok ()) (labelled : g.Labelled)
    (o : Operation) : (∃ p, program g o = .ok p) ↔ SupportedOperation g o := by
  have sound : g.Sound := Graph.sound_of_check checked
  constructor
  · rintro ⟨p, compiled⟩
    exact supportedOperation_of_program sound labelled compiled
  · exact program_ok_of_supportedOperation sound labelled

theorem labelled_folderGraph : folderGraph.Labelled := by
  constructor
  · intro n s f found isStruct m member
    have named : ∀ s ∈ folderGraph.shapes.values, ∀ f ∈ s.fields?.toList, ∀ m ∈ f.members,
        m.name.isSome = true := by decide
    have own : f ∈ s.fields?.toList := Option.mem_toList.2 (Shape.fields?_eq_some_iff.2 isStruct)
    exact named s (NameMap.mem_values_iff.2 ⟨n, found⟩) f own m member
  · intro n s found
    exact itemsUnnamed_of_load load_folderDescription found

/-- Folders can be put. -/
theorem supportedOperation_putFolder :
    folderGraph.check = .ok () ∧ SupportedOperation folderGraph putFolder :=
  have checked : folderGraph.check = .ok () := (Graph.load_eq_ok_iff.1 load_folderDescription).2
  ⟨checked,
    (program_ok_iff_supported checked labelled_folderGraph putFolder).1 ⟨_, program_putFolder⟩⟩

end WireBody.Compile
