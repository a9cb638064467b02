import WireBody.Proofs.Compile.Footprint

/-!
# Where an operation without a program fails

An operation of a sound graph has no program for one of four reasons: its input is no structure, its
declared payload is of a kind that is no body, a body member of some structure has no step, or the
document would get an attribute.  Each report names what is at fault.  A report about a member names
the structure that the member belongs to, which may be any one that the document's structure reaches,
and the cause in it is that of the member alone: structures are worked out one by one, so a cause
passes one member on its way, however deep its structure stands.

`Offends` says without a compiler which targets have no step, and why.  It follows the lists that
lead to what is written, since these are walked in the step of their member.

Main statement: `reported_of_program`.
-/

set_option autoImplicit false

namespace WireBody.Compile

open WireBody.Program
open WireBody.Service

/-! ## Reports -/

/-- A member that targets this shape has no step, for this reason. -/
inductive Offends (g : Graph) : Member → Shape → CompileError → Prop
  | map {m key value : Member} {s : Shape} {flattened : Bool} :
      s.kind = .map key value flattened → Offends g m s (.unsupportedMap s.name)
  | scalar {m : Member} {s : Shape} {k : Scalar} :
      s.kind = .scalar k → k.isText = false → k ≠ .boolean →
      Offends g m s (.unsupportedType s.name k.name)
  | boolean {m : Member} {s : Shape} :
      s.kind = .scalar .boolean → m.asAttribute = true → Offends g m s (.booleanAttribute m.label)
  | item {m item : Member} {s element : Shape} {flattened : Bool} {e : CompileError} :
      s.kind = .list item flattened → g.shapes.get? item.target = some element →
      Offends g (itemMember m item flattened) element e → Offends g m s e

/-- The member is the first one in the body of the structure `owner` that has no step, and `e` is
why. -/
inductive FirstFailing (g : Graph) (owner : String) : Member → CompileError → Prop
  | member {s t : Shape} {f : Fields} {before after : List Member} {m : Member} {e : CompileError} :
      g.shapes.get? owner = some s → s.kind = .struct f → f.bodyMembers = before ++ m :: after →
      (∀ b ∈ before, ∃ op, memberStep g b = .ok op) → memberStep g m = .error e →
      g.shapes.get? m.target = some t → Offends g m t e → FirstFailing g owner m e

/-- What may be reported of an operation that has no program. -/
inductive Reported (g : Graph) (o : Operation) : CompileError → Prop
  /-- A body member of a structure that the document's structure reaches, with its own cause. -/
  | member {root owner : String} {m : Member} {e : CompileError} :
      RootOf g o root → Reaches g root owner → FirstFailing g owner m e →
      (∀ owner' called cause, e ≠ .inMember owner' called cause) →
      Reported g o (.inMember owner m.label e)
  /-- The input, which is no structure. -/
  | input {input : String} {s : Shape} :
      o.input = some input → g.shapes.get? input = some s → s.fields? = none →
      Reported g o (.notAStructure input s.kind.name)
  /-- The payload of the input, which is neither streamed nor a structure or text. -/
  | payload {input : String} {s t : Shape} {f : Fields} {m : Member} :
      o.input = some input → g.shapes.get? input = some s → s.kind = .struct f →
      f.payloadMember? = some m → m.streaming = false → g.shapes.get? m.target = some t →
      t.streaming = false → t.fields? = none → t.isText = false →
      Reported g o (.unsupportedPayload input m.label t.kind.name)
  /-- The structure of the document, of which a text is an attribute, though it and all that it
  reaches have their steps. -/
  | document {root : String} {s t e : Shape} {f : Fields} {m : Member} :
      RootOf g o root →
      (∀ name s f, Reaches g root name → g.shapes.get? name = some s → s.kind = .struct f →
        ∀ m ∈ f.bodyMembers, ∃ op, memberStep g m = .ok op) →
      g.shapes.get? root = some s → s.kind = .struct f → m ∈ f.bodyMembers →
      m.asAttribute = true → g.shapes.get? m.target = some t → LeadsTo g t true e →
      e.isText = true → Reported g o (.attributeOnDocument root)

variable {g : Graph}

/-! ## Members -/

/-- No cause is a report about a member. -/
theorem Offends.not_inMember {m : Member} {s : Shape} {e : CompileError} (offends : Offends g m s e)
    (owner called : String) (cause : CompileError) : e ≠ .inMember owner called cause := by
  induction offends with
  | map _ | scalar _ _ _ | boolean _ _ => exact CompileError.noConfusion
  | item _ _ _ ih => exact ih

theorem offends_of_scalarStep {m : Member} {s : Shape} {source : Source} {k : Scalar}
    {e : CompileError} (isScalar : s.kind = .scalar k)
    (failed : scalarStep m s source k = .error e) : Offends g m s e := by
  have other (kind : s.kind.name = k.name) (noText : k.isText = false) (noTruth : k ≠ .boolean) :
      Offends g m s (.unsupportedType s.name s.kind.name) := kind ▸ .scalar isScalar noText noTruth
  have kind : s.kind.name = k.name := by rw [isScalar, Kind.name]
  unfold scalarStep at failed
  split at failed
  · cases failed
  · cases failed
  · split at failed
    · rename_i attr
      cases failed
      exact .boolean isScalar attr
    · cases failed
  all_goals
    cases failed
    exact other kind rfl Scalar.noConfusion

/-- In a sound graph lists end before the descent does, so what stops it stands in the graph. -/
theorem offends_of_stepFor (sound : g.Sound) {bound : Nat} {m : Member} {s : Shape}
    {source : Source} {e : CompileError} (stored : g.shapes.get? s.name = some s)
    (ends : g.bottomsOut bound s = true) (failed : stepFor g bound m s source = .error e) :
    Offends g m s e := by
  fun_induction stepFor g bound m s source with
  | case1 => cases failed
  | case2 bound m s source key value flattened isMap =>
    cases failed
    exact .map isMap
  | case3 bound m s source k isScalar => exact offends_of_scalarStep isScalar failed
  | case4 bound m s source item flattened isList e' missing =>
    obtain ⟨element, found⟩ := sound.items stored isList
    rw [shapeOf_eq_ok_iff.2 found] at missing
    cases missing
  | case5 m s source item flattened isList element found =>
    obtain ⟨rest, impossible, -⟩ :=
      Graph.exists_bound_of_item isList (shapeOf_eq_ok_iff.1 found) ends
    cases impossible
  | case6 m s source item element found bound isList ih =>
    have found := shapeOf_eq_ok_iff.1 found
    obtain ⟨rest, same, ends⟩ := Graph.exists_bound_of_item isList found ends
    cases same
    exact .item isList found (ih (g.shape_named found ▸ found) ends (map_eq_error_iff.1 failed))
  | case7 m s source item flattened isList element found bound plain ih =>
    have found := shapeOf_eq_ok_iff.1 found
    obtain ⟨rest, same, ends⟩ := Graph.exists_bound_of_item isList found ends
    cases same
    refine .item isList found ?_
    rw [itemMember, if_neg plain]
    exact ih (g.shape_named found ▸ found) ends (map_eq_error_iff.1 failed)

theorem offends_of_memberStep (sound : g.Sound) {m : Member} {t : Shape} {e : CompileError}
    (target : g.shapes.get? m.target = some t) (failed : memberStep g m = .error e) :
    Offends g m t e := by
  have step (source : Source) (failed : stepFor g g.listBound m t source = .error e) :
      Offends g m t e :=
    offends_of_stepFor sound (g.shape_named target ▸ target) (sound.bounded target) failed
  unfold memberStep at failed
  rw [shapeOf_eq_ok_iff.2 target] at failed
  simp only at failed
  split at failed
  · exact step _ failed
  · exact step _ (map_eq_error_iff.1 failed)

/-! ## Structures -/

theorem firstFailing_of_routineOf (sound : g.Sound) {name : String} {s : Shape} {f : Fields}
    (found : g.shapes.get? name = some s) (isStruct : s.kind = .struct f) {e : CompileError}
    (failed : routineOf g name = .error e) :
    ∃ m cause, e = .inMember name m.label cause ∧ FirstFailing g name m cause := by
  unfold routineOf memberSteps at failed
  rw [shapeOf_eq_ok_iff.2 found] at failed
  simp only [isStruct] at failed
  obtain ⟨before, m, after, split, passes, failed⟩ :=
    exists_split_of_mapM_eq_error (map_eq_error_iff.1 failed)
  have member : m ∈ f.bodyMembers := split ▸ List.mem_append_right _ List.mem_cons_self
  obtain ⟨t, target⟩ := sound.members found isStruct m (List.mem_of_mem_filter member)
  cases outcome : memberStep g m with
  | ok op =>
    rw [outcome] at failed
    cases failed
  | error cause =>
    rw [outcome] at failed
    cases failed
    rw [g.shape_named found]
    exact ⟨m, cause, rfl, .member found isStruct split
      (fun b earlier => mapError_ok_iff.1 (passes b earlier)) outcome target
      (offends_of_memberStep sound target outcome)⟩

theorem memberStep_ok_of_routineOf {name : String} {s : Shape} {f : Fields} {r : Routine}
    (found : g.shapes.get? name = some s) (isStruct : s.kind = .struct f)
    (compiled : routineOf g name = .ok r) : ∀ m ∈ f.bodyMembers, ∃ op, memberStep g m = .ok op := by
  unfold routineOf memberSteps at compiled
  rw [shapeOf_eq_ok_iff.2 found] at compiled
  simp only [isStruct] at compiled
  obtain ⟨ops, steps, -⟩ := map_eq_ok_iff.1 compiled
  intro m member
  exact mapError_ok_iff.1 (mapM_ok_iff.1 ⟨ops, steps⟩ m member)

theorem RefersTo.struct {owner other : String} (refers : RefersTo g owner other) :
    ∃ s f, g.shapes.get? other = some s ∧ s.kind = .struct f := by
  obtain ⟨-, -, -, target, leads, isStruct, rfl⟩ := refers
  exact ⟨_, _, leads.stored (g.shape_named target ▸ target), isStruct⟩

/-- What a structure reaches are structures. -/
theorem Reaches.struct {root name : String} {s : Shape} {f : Fields}
    (found : g.shapes.get? root = some s) (isStruct : s.kind = .struct f)
    (reached : Reaches g root name) : ∃ s f, g.shapes.get? name = some s ∧ s.kind = .struct f := by
  cases reached with
  | refl => exact ⟨s, f, found, isStruct⟩
  | tail _ refers => exact refers.struct

/-! ## Operations -/

/-- A structure that fails is one that the work list came to, and an attribute on the document is
seen only once the work list is empty. -/
theorem reported_of_documentProgram (sound : g.Sound) {o : Operation} {operation root : String}
    {payload : Option String} {s : Shape} {f : Fields} (isRoot : RootOf g o root)
    (found : g.shapes.get? root = some s) (isStruct : s.kind = .struct f) {e : CompileError}
    (failed : documentProgram g operation root payload = .error e) : Reported g o e := by
  unfold documentProgram at failed
  split at failed
  · rename_i e' unworked
    cases failed
    obtain ⟨name, reached, failed⟩ := (routines_reach g root).2.2 e unworked
    obtain ⟨s, f, found, isStruct⟩ := Reaches.struct found isStruct reached
    obtain ⟨m, cause, rfl, first⟩ := firstFailing_of_routineOf sound found isStruct failed
    refine .member isRoot reached first ?_
    cases first with
    | member _ _ _ _ _ _ offends => exact offends.not_inMember
  · rename_i rs worked
    obtain ⟨closed, r, own⟩ := closed_of_routines worked
    rw [own] at failed
    simp only at failed
    split at failed
    · cases failed
    · split at failed
      · rename_i attr
        cases failed
        obtain ⟨s', f', found', isStruct', steps⟩ := steps_of_routineOf (closed.compiled own)
        cases found.symm.trans found'
        cases isStruct.symm.trans isStruct'
        obtain ⟨m, member, attr, t, e, target, leads, isText⟩ := (anySetsAttribute_iff steps).1 attr
        refine .document isRoot ?_ found isStruct member attr target leads isText
        intro name s f reached found isStruct
        obtain ⟨r, found'⟩ := closed.get?_of_reaches ⟨r, own⟩ reached
        exact memberStep_ok_of_routineOf found isStruct (closed.compiled found')
      · cases failed

theorem reported_of_payloadProgram (sound : g.Sound) {o : Operation} {input : String} {s : Shape}
    {f : Fields} {m : Member} (given : o.input = some input)
    (found : g.shapes.get? input = some s) (isStruct : s.kind = .struct f)
    (declared : f.payloadMember? = some m) {e : CompileError}
    (failed : payloadProgram g o.name s.name m = .error e) : Reported g o e := by
  obtain ⟨t, target⟩ := sound.members found isStruct m (Fields.mem_of_payloadMember? declared)
  unfold payloadProgram at failed
  rw [streamed_of_target target, shapeOf_eq_ok_iff.2 target] at failed
  cases streams : m.streaming || t.streaming with
  | true =>
    rw [streams] at failed
    cases failed
  | false =>
    obtain ⟨plain, whole⟩ := Bool.or_eq_false_iff.1 streams
    rw [streams] at failed
    simp only at failed
    split at failed
    · rename_i f' isStruct'
      have isRoot : RootOf g o m.target :=
        .payload given found isStruct declared plain target whole isStruct'
      rw [g.shape_named target] at failed
      exact reported_of_documentProgram sound isRoot target isStruct' failed
    · cases failed
    · cases failed
    · rename_i noStruct noString noBlob
      cases failed
      rw [g.shape_named found]
      refine .payload given found isStruct declared plain target whole ?_ ?_
      · cases fields : t.fields? with
        | none => rfl
        | some f => exact (noStruct f (Shape.fields?_eq_some_iff.1 fields)).elim
      · refine Bool.eq_false_iff.2 fun isText => ?_
        obtain ⟨k, isScalar, isText⟩ := Shape.isText_iff.1 isText
        cases k with
        | string => exact noString isScalar
        | blob => exact noBlob isScalar
        | _ => cases isText

/-- An operation of a sound graph that has no program is reported with what is at fault. -/
theorem reported_of_program {g : Graph} (checked : g.check = .ok ()) {n : String} {o : Operation}
    (listed : g.operations.get? n = some o) {e : CompileError} (failed : program g o = .error e) :
    Reported g o e := by
  have sound := Graph.sound_of_check checked
  unfold program at failed
  split at failed
  · cases failed
  · rename_i input given
    obtain ⟨s, found⟩ := Graph.exists_input_of_check checked listed given
    rw [shapeOf_eq_ok_iff.2 found] at failed
    simp only at failed
    split at failed
    · rename_i f isStruct
      split at failed
      · rename_i undeclared
        exact reported_of_documentProgram sound (.input given found isStruct undeclared) found
          isStruct failed
      · rename_i m declared
        exact reported_of_payloadProgram sound given found isStruct declared failed
    · rename_i noStruct
      cases failed
      rw [g.shape_named found]
      refine .input given found ?_
      cases fields : s.fields? with
      | none => rfl
      | some f => exact (noStruct f (Shape.fields?_eq_some_iff.1 fields)).elim

/-! ## Calendars

A calendar lists its events, and an event those that follow up on it.  When an event begins is a
timestamp, for which there is no step. -/

/-- The members of an event.  Those that follow up on it come last, and lead back to events. -/
def eventFields : Fields :=
  ⟨[⟨some "Title", "Text", none, .body, true, false, none, false, false⟩,
    ⟨some "Begins", "Time", none, .body, true, false, none, false, false⟩,
    ⟨some "FollowUps", "Events", none, .body, false, false, none, false, false⟩], none⟩

/-- The members of a request: the calendar's events. -/
def putCalendarFields : Fields :=
  ⟨[⟨some "Owner", "Text", none, .header, true, false, none, false, false⟩,
    ⟨some "Calendar", "Events", none, .body, true, false, none, false, false⟩], none⟩

/-- The operation that puts a calendar. -/
def putCalendar : Operation := ⟨"PutCalendar", some "Request"⟩

/-- Calendars of events. -/
def calendarGraph : Graph :=
  Graph.assemble .none
    [⟨"Text", .scalar .string, none, false⟩,
     ⟨"Time", .scalar .timestamp, none, false⟩,
     ⟨"Event", .struct eventFields, none, false⟩,
     ⟨"Events", .list (.element "Event") false, none, false⟩,
     ⟨"Request", .struct putCalendarFields, none, false⟩]
    [putCalendar]

/-- The report names the event's member, though the request has no event but in a list. -/
theorem reported_of_program_putCalendar :
    calendarGraph.check = .ok () ∧
      calendarGraph.operations.get? "PutCalendar" = some putCalendar ∧
      program calendarGraph putCalendar =
        .error (.inMember "Event" "Begins" (.unsupportedType "Time" "timestamp")) ∧
      Reported calendarGraph putCalendar
        (.inMember "Event" "Begins" (.unsupportedType "Time" "timestamp")) := by
  have failed : program calendarGraph putCalendar =
      .error (.inMember "Event" "Begins" (.unsupportedType "Time" "timestamp")) := by cbv
  have listed : calendarGraph.operations.get? "PutCalendar" = some putCalendar := rfl
  exact ⟨rfl, listed, failed, reported_of_program rfl listed failed⟩

end WireBody.Compile
