import WireBody.Proofs.Compile.Closure
import WireBody.Proofs.Run.Elements

/-!
# The order of attributes and children

An element keeps its attributes apart from its children, so a step that can only set attributes does
not meddle with one that sets none: whichever of the two is taken first, the attributes come out in
the same order, and so do the children.  Only which error is reported can depend on it.  Attributes
may therefore be set after the children, and it is as if they had been set before.

Outcomes are compared by `Except.toOption`: they have the same result, or both fail.

Main definitions: `Exchange` exchanges two such steps anywhere among the steps of a routine,
`attributesFirst` puts all that set attributes in front, and `RunAlike` is what does not change.

Main statement: `runAlike_of_exchange`.
-/

set_option autoImplicit false

namespace WireBody.Run

open WireBody.Program
open WireBody.Request
open WireBody.Xml

variable {p q : Program} {place : Place} {scope : Scope}

/-! ## Steps that write alike -/

/-- Steps that write the same wherever they are taken, or fail there both. -/
def WriteAlike (ops ops' : List Op) : Prop :=
  ∀ (p : Program) (place : Place) (scope : Scope),
    (runOps p place scope ops).toOption = (runOps p place scope ops').toOption

namespace WriteAlike

variable {ops ops' : List Op}

theorem refl (ops : List Op) : WriteAlike ops ops := fun _ _ _ => rfl

theorem symm (alike : WriteAlike ops ops') : WriteAlike ops' ops :=
  fun p place scope => (alike p place scope).symm

theorem trans {ops'' : List Op} (first : WriteAlike ops ops') (second : WriteAlike ops' ops'') :
    WriteAlike ops ops'' :=
  fun p place scope => (first p place scope).trans (second p place scope)

theorem append {more more' : List Op} (first : WriteAlike ops ops')
    (second : WriteAlike more more') : WriteAlike (ops ++ more) (ops' ++ more') := by
  intro p place scope
  rw [runOps_append, runOps_append]
  exact toOption_both_congr (first p place scope) (second p place scope)

theorem cons (op : Op) (rest : WriteAlike ops ops') : WriteAlike (op :: ops) (op :: ops') :=
  append (refl [op]) rest

theorem ifPresent (field : String) (body : WriteAlike ops ops') :
    WriteAlike [.ifPresent field ops] [.ifPresent field ops'] := by
  intro p place scope
  rw [runOps_singleton, runOps_singleton]
  cases found : scope.fields.lookup field with
  | none => rw [runOp_ifPresent_of_none ops found, runOp_ifPresent_of_none ops' found]
  | some v =>
    rw [runOp_ifPresent_of_some ops found, runOp_ifPresent_of_some ops' found]
    exact body p place (scope.withPresent v (sizeOf_lt_of_lookup found))

theorem items (body : WriteAlike ops ops') (p : Program) (place : Place) (scope : Scope) :
    ∀ (items : List Value) (below : ∀ v ∈ items, sizeOf v < sizeOf scope.fields),
      (runItems p place scope ops items below).toOption =
        (runItems p place scope ops' items below).toOption
  | [], below => by rw [runItems_nil, runItems_nil]
  | v :: rest, below => by
    rw [runItems_cons, runItems_cons]
    exact toOption_both_congr (body p place _) (items body p place scope rest _)

theorem forEach (wrapper : Option String) (source : Source) (body : WriteAlike ops ops') :
    WriteAlike [.forEach wrapper source ops] [.forEach wrapper source ops'] := by
  intro p place scope
  rw [runOps_singleton, runOps_singleton]
  cases listed : scope.items source (listName wrapper) with
  | error e => rw [runOp_forEach_of_error ops listed, runOp_forEach_of_error ops' listed]
  | ok values =>
    cases wrapper with
    | none =>
      rw [runOp_forEach_none ops listed, runOp_forEach_none ops' listed]
      exact body.items p place scope values _
    | some tag =>
      rw [runOp_forEach_some ops listed, runOp_forEach_some ops' listed, return_eq_map,
        return_eq_map]
      exact toOption_map_congr (body.items p .element scope values _)

end WriteAlike

/-! ## Exchanging steps -/

/-- Attributes alone and children alone can be written in either order. -/
theorem append_comm_of_apart {c d : Content} (attributes : c.children = [])
    (children : d.attributes = []) : c ++ d = d ++ c := by
  have same : ∀ c' d' : Content, c'.attributes = d'.attributes → c'.children = d'.children →
      c' = d' := by
    rintro ⟨_, _⟩ ⟨_, _⟩ rfl rfl
    rfl
  apply same
  · rw [Content.attributes_append, Content.attributes_append, children, List.append_nil,
      List.nil_append]
  · rw [Content.children_append, Content.children_append, attributes, List.append_nil,
      List.nil_append]

/-- Steps that can only set attributes, and steps that set none, can be taken in either order. -/
theorem writeAlike_append_comm {attributes others : List Op}
    (only : Op.allOnlySetAttributes attributes = true)
    (plain : Op.anySetsAttribute others = false) :
    WriteAlike (attributes ++ others) (others ++ attributes) := by
  intro p place scope
  rw [runOps_append, runOps_append]
  cases first : runOps p place scope attributes with
  | error e =>
    cases second : runOps p place scope others with
    | error e' => rfl
    | ok d => rfl
  | ok c =>
    cases second : runOps p place scope others with
    | error e' => rfl
    | ok d =>
      have exchanged := append_comm_of_apart (children_of_runOps only first)
        (attributes_of_runOps plain second)
      exact congrArg some exchanged

/-- Two adjacent steps, of which one can only set attributes and the other sets none, are exchanged
somewhere among some steps. -/
inductive Exchange : List Op → List Op → Prop
  /-- The attribute is put behind the step after it. -/
  | behind {a b : Op} {rest : List Op} :
      a.onlySetsAttributes = true → b.setsAttribute = false →
      Exchange (a :: b :: rest) (b :: a :: rest)
  /-- The attribute is put in front of the step before it. -/
  | inFront {a b : Op} {rest : List Op} :
      a.onlySetsAttributes = true → b.setsAttribute = false →
      Exchange (b :: a :: rest) (a :: b :: rest)
  | later {op : Op} {rest rest' : List Op} :
      Exchange rest rest' → Exchange (op :: rest) (op :: rest')
  | inPresent {field : String} {body body' rest : List Op} :
      Exchange body body' →
      Exchange (.ifPresent field body :: rest) (.ifPresent field body' :: rest)
  | inEach {wrapper : Option String} {source : Source} {body body' rest : List Op} :
      Exchange body body' →
      Exchange (.forEach wrapper source body :: rest) (.forEach wrapper source body' :: rest)

/-- Nothing that steps write depends on such an exchange. -/
theorem writeAlike_of_exchange {ops ops' : List Op} (exchanged : Exchange ops ops') :
    WriteAlike ops ops' := by
  have adjacent {a b : Op} {rest : List Op} (only : a.onlySetsAttributes = true)
      (plain : b.setsAttribute = false) : WriteAlike (a :: b :: rest) (b :: a :: rest) := by
    have swapped : WriteAlike ([a] ++ [b]) ([b] ++ [a]) := by
      apply writeAlike_append_comm
      · exact Op.allOnlySetAttributes_iff.2 (List.forall_mem_singleton.2 only)
      · exact Op.anySetsAttribute_eq_false_iff.2 (List.forall_mem_singleton.2 plain)
    exact swapped.append (.refl rest)
  induction exchanged with
  | behind only plain => exact adjacent only plain
  | inFront only plain => exact (adjacent only plain).symm
  | later _ ih => exact ih.cons _
  | @inPresent field body body' rest _ ih => exact (ih.ifPresent field).append (.refl rest)
  | @inEach wrapper source body body' rest _ ih =>
    exact (ih.forEach wrapper source).append (.refl rest)

/-! ## Attributes in front -/

/-- Some steps, those that can only set attributes in front of the others. -/
def attributesFirst (ops : List Op) : List Op :=
  ops.filter Op.onlySetsAttributes ++ ops.filter fun op => !op.onlySetsAttributes

/-- If each step can only set attributes or sets none, then all attributes may be set first. -/
theorem writeAlike_attributesFirst {ops : List Op}
    (apart : ∀ op ∈ ops, op.onlySetsAttributes = true ∨ op.setsAttribute = false) :
    WriteAlike ops (attributesFirst ops) := by
  induction ops with
  | nil => exact .refl []
  | cons op rest ih =>
    obtain ⟨own, others⟩ := List.forall_mem_cons.1 apart
    have moved := (ih others).cons op
    unfold attributesFirst at moved ⊢
    cases only : op.onlySetsAttributes with
    | true =>
      rw [List.filter_cons_of_pos only, List.filter_cons_of_neg (by rw [only]; decide)]
      exact moved
    | false =>
      -- The step passes all the attributes that come after it.
      rw [List.filter_cons_of_neg (by rw [only]; decide), List.filter_cons_of_pos (by rw [only]; rfl)]
      refine moved.trans ?_
      have passes : WriteAlike ([op] ++ rest.filter Op.onlySetsAttributes)
          (rest.filter Op.onlySetsAttributes ++ [op]) := by
        apply WriteAlike.symm
        apply writeAlike_append_comm
        · exact Op.allOnlySetAttributes_iff.2 fun a member => (List.mem_filter.1 member).2
        · rw [only] at own
          exact Op.anySetsAttribute_eq_false_iff.2
            (List.forall_mem_singleton.2 (own.resolve_left Bool.false_ne_true))
      have whole := passes.append (.refl (rest.filter fun op => !op.onlySetsAttributes))
      rw [List.append_assoc, List.append_assoc] at whole
      exact whole

/-! ## Programs that run alike -/

/-- Programs that have routines for the same structures, and ones that write alike. -/
structure RoutinesAlike (p q : Program) : Prop where
  missing : ∀ {shape}, p.routine? shape = none → q.routine? shape = none
  own : ∀ {shape r}, p.routine? shape = some r →
    ∃ r', q.routine? shape = some r' ∧ WriteAlike r.ops r'.ops

/-- Programs whose routines write alike take all steps alike. -/
theorem toOption_runOps_congr (same : RoutinesAlike p q) (place : Place) (scope : Scope)
    (ops : List Op) :
    (runOps p place scope ops).toOption = (runOps q place scope ops).toOption := by
  refine (runOps.mutual_induct p
    (fun place scope ops =>
      (runOps p place scope ops).toOption = (runOps q place scope ops).toOption)
    (fun place scope op =>
      (runOp p place scope op).toOption = (runOp q place scope op).toOption)
    (fun place scope body items below =>
      (runItems p place scope body items below).toOption =
        (runItems q place scope body items below).toOption)
    ?nil ?cons ?absent ?present ?element ?attr ?boolean ?notStruct ?noRoutine ?struct
    ?notList ?wrapped ?flattened ?noItems ?items).1 place scope ops
  case nil =>
    intro place scope
    rw [runOps_nil, runOps_nil]
  case cons =>
    intro place scope op rest ihOp ihRest
    rw [runOps_cons, runOps_cons]
    exact toOption_both_congr ihOp ihRest
  case absent =>
    intro place scope field body absent
    rw [runOp_ifPresent_of_none body absent, runOp_ifPresent_of_none body absent]
  case present =>
    intro place scope field body v found ih
    rw [runOp_ifPresent_of_some body found, runOp_ifPresent_of_some body found]
    exact ih
  case element =>
    intro place scope tag source
    rw [runOp_element, runOp_element]
  case attr =>
    intro place scope name source
    rw [runOp_attr, runOp_attr]
  case boolean =>
    intro place scope tag source
    rw [runOp_boolean, runOp_boolean]
  case notStruct =>
    intro place scope tag declared shape source e failed
    rw [runOp_struct_of_error failed, runOp_struct_of_error failed]
  case noRoutine =>
    intro place scope tag declared shape source fields required _ missing
    rw [runOp_struct_of_missing required missing,
      runOp_struct_of_missing required (same.missing missing)]
  case struct =>
    intro place scope tag declared shape source fields required _ r own ih
    obtain ⟨r', own', alike⟩ := same.own own
    rw [runOp_struct required own, runOp_struct required own', return_eq_map, return_eq_map]
    exact toOption_map_congr (ih.trans (alike q .element (.ofFields fields)))
  case notList =>
    intro place scope wrapper source body e failed
    rw [runOp_forEach_of_error body failed, runOp_forEach_of_error body failed]
  case wrapped =>
    intro place scope source body items tag listed ih
    rw [runOp_forEach_some body listed, runOp_forEach_some body listed, return_eq_map,
      return_eq_map]
    exact toOption_map_congr ih
  case flattened =>
    intro place scope source body items listed ih
    rw [runOp_forEach_none body listed, runOp_forEach_none body listed]
    exact ih
  case noItems =>
    intro place scope body below _
    rw [runItems_nil, runItems_nil]
  case items =>
    intro place scope body v rest below _ ihFirst ihRest
    rw [runItems_cons, runItems_cons]
    exact toOption_both_congr ihFirst ihRest

/-- Two programs that cannot be told apart by what they write; that they fail can be told, but not
by what. -/
structure RunAlike (p q : Program) : Prop where
  /-- The attributes, in their order, and the children that a routine writes for a structure. -/
  content : ∀ place shape fields,
    (runRoutine p place shape fields).toOption = (runRoutine q place shape fields).toOption
  /-- The element that it fills. -/
  element : ∀ tag declared shape fields,
    ((runRoutine p .element shape fields).map (elementOf tag declared)).toOption =
      ((runRoutine q .element shape fields).map (elementOf tag declared)).toOption
  /-- The bytes of a request. -/
  bytes : ∀ declared request,
    (p.serialize declared request).toOption = (q.serialize declared request).toOption

theorem runAlike_of_routines (operation : p.operation = q.operation) (plan : p.plan = q.plan)
    (same : RoutinesAlike p q) : RunAlike p q := by
  have content (place : Place) (shape : String) (fields : List (String × Value)) :
      (runRoutine p place shape fields).toOption = (runRoutine q place shape fields).toOption := by
    unfold runRoutine
    cases own : p.routine? shape with
    | none => rw [same.missing own]
    | some r =>
      obtain ⟨r', own', alike⟩ := same.own own
      rw [own']
      exact (toOption_runOps_congr same place _ r.ops).trans (alike q place _)
  refine ⟨content, fun tag declared shape fields => ?element, fun declared request => ?bytes⟩
  case element => exact toOption_map_congr (content .element shape fields)
  case bytes =>
    apply toOption_map_congr
    unfold Program.run
    rw [operation, plan]
    apply toOption_bind_congr rfl
    intro fields
    cases q.plan with
    | empty => rfl
    | raw field => rfl
    | document root payload =>
      apply toOption_bind_congr rfl
      intro found
      cases found with
      | none => rfl
      | some present => exact toOption_bind_congr (content .document root present) fun _ => rfl

/-- A program with another routine for a structure. -/
def withRoutine (p : Program) (shape : String) (r : Routine) : Program :=
  { p with routines := p.routines.insert shape r }

theorem runAlike_withRoutine {shape : String} {r : Routine} (own : p.routine? shape = some r)
    {ops : List Op} (alike : WriteAlike r.ops ops) :
    RunAlike p (withRoutine p shape { r with ops := ops }) := by
  have found (name : String) : (withRoutine p shape { r with ops := ops }).routine? name =
      if name = shape then some { r with ops := ops } else p.routine? name :=
    p.routines.get?_insert shape _ name
  refine runAlike_of_routines rfl rfl ⟨fun {name} missing => ?missing, fun {name r'} own' => ?own⟩
  case missing =>
    rw [found, if_neg fun same => ?_, missing]
    rw [same, own] at missing
    cases missing
  case own =>
    rw [found]
    by_cases changed : name = shape
    · rw [changed, own] at own'
      cases own'
      rw [if_pos changed]
      exact ⟨_, rfl, alike⟩
    · rw [if_neg changed]
      exact ⟨r', own', .refl r'.ops⟩

end WireBody.Run

namespace WireBody.Compile

open WireBody.Program
open WireBody.Service

variable {g : Graph}

/-- What writes a value either can only set attributes or sets none. -/
theorem apart_of_stepOf {m : Member} {s : Shape} {source : Source} {op : Op}
    (step : StepOf g m s source op) : op.onlySetsAttributes = true ∨ op.setsAttribute = false := by
  induction step with
  | struct _ => exact .inr rfl
  | @text m s source k _ _ =>
    unfold textStep
    split
    · exact .inl rfl
    · exact .inr rfl
  | boolean _ _ => exact .inr rfl
  | flattened _ _ _ ih =>
    rw [Op.onlySetsAttributes, Op.setsAttribute, Op.allOnlySetAttributes_iff,
      Op.anySetsAttribute_eq_false_iff, List.forall_mem_singleton, List.forall_mem_singleton]
    exact ih
  | wrapped _ _ _ _ => exact .inr rfl

theorem apart_of_memberStepOf {m : Member} {op : Op} (step : MemberStepOf g m op) :
    op.onlySetsAttributes = true ∨ op.setsAttribute = false := by
  cases step with
  | always _ _ step => exact apart_of_stepOf step
  | ifPresent _ _ step =>
    rw [Op.onlySetsAttributes, Op.setsAttribute, Op.allOnlySetAttributes_iff,
      Op.anySetsAttribute_eq_false_iff, List.forall_mem_singleton, List.forall_mem_singleton]
    exact apart_of_stepOf step

/-- So does each step of a compiled routine, which writes a member. -/
theorem apart_of_program {o : Operation} {p : Program} (compiled : program g o = .ok p)
    {shape : String} {r : Routine} (own : p.routine? shape = some r) :
    ∀ op ∈ r.ops, op.onlySetsAttributes = true ∨ op.setsAttribute = false := by
  intro op member
  obtain ⟨s, f, -, -, steps⟩ := steps_of_routineOf ((closed_of_program compiled).compiled own)
  obtain ⟨m, -, step⟩ := exists_of_mem_right steps member
  exact apart_of_memberStepOf step

end WireBody.Compile

namespace WireBody.Run

open WireBody.Program
open WireBody.Request

/-- In any program, exchange a step of a routine that can only set attributes with an adjacent one
that sets none: the routine writes the same attributes in the same order and the same children for
every structure and in every place, or fails both ways, and so does all that the program writes.
A routine of such steps alone, as all of a compiled program are, may therefore set its attributes
first. -/
theorem runAlike_of_exchange {p : Program} {shape : String} {r : Routine}
    (own : p.routine? shape = some r) :
    (∀ ops, Exchange r.ops ops →
      WriteAlike r.ops ops ∧ RunAlike p (withRoutine p shape { r with ops := ops })) ∧
    ((∀ op ∈ r.ops, op.onlySetsAttributes = true ∨ op.setsAttribute = false) →
      WriteAlike r.ops (attributesFirst r.ops) ∧
        RunAlike p (withRoutine p shape { r with ops := attributesFirst r.ops })) ∧
    (∀ g o, Compile.program g o = .ok p →
      RunAlike p (withRoutine p shape { r with ops := attributesFirst r.ops })) := by
  refine ⟨fun ops exchanged => ?exchange, fun apart => ?first, fun g o compiled => ?compiled⟩
  case exchange =>
    have alike := writeAlike_of_exchange exchanged
    exact ⟨alike, runAlike_withRoutine own alike⟩
  case first =>
    have alike := writeAlike_attributesFirst apart
    exact ⟨alike, runAlike_withRoutine own alike⟩
  case compiled =>
    exact runAlike_withRoutine own
      (writeAlike_attributesFirst (Compile.apart_of_program compiled own))

/-- A folder whose identifier is set after its owner is written as before. -/
theorem runAlike_of_exchange_folder :
    Compile.folderProgram.routine? "Folder" = some Compile.folderRoutine ∧
      RunAlike Compile.folderProgram (withRoutine Compile.folderProgram "Folder"
        ⟨"Folder",
          [.element "Owner" (.field "Owner"),
           .ifPresent "Id" [.attr "id" .present],
           .forEach none (.field "Inner")
             [.struct "Folder" (some ⟨"xmlns", "urn:folders"⟩) "Folder" .item]]⟩) := by
  have exchanged : Exchange Compile.folderRoutine.ops
      [.element "Owner" (.field "Owner"),
       .ifPresent "Id" [.attr "id" .present],
       .forEach none (.field "Inner")
         [.struct "Folder" (some ⟨"xmlns", "urn:folders"⟩) "Folder" .item]] :=
    .behind rfl rfl
  have own : Compile.folderProgram.routine? "Folder" = some Compile.folderRoutine := rfl
  exact ⟨own, ((runAlike_of_exchange own).1 _ exchanged).2⟩

end WireBody.Run
