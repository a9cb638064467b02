import WireBody.Proofs.Run.Steps

/-!
# What a run is made of

Whatever a program is, its steps write attributes and elements and put what they write one after the
other.  What holds of these, and is kept by putting things together, therefore holds of all content;
so there is no text beside the elements of a document, steps that set no attribute write elements
alone, and steps that can only set attributes write no elements.

Main statements: `content_of_runOps` is the invariant of a run, and `elements_of_run` what it says
of documents.
-/

set_option autoImplicit false

namespace WireBody.Xml

/-- The node is an element. -/
def Node.IsElement : Node → Prop
  | .element _ _ _ => True
  | .text _ => False

end WireBody.Xml

namespace WireBody.Program.Op

/-- Whether a step adds an element to the place. -/
def addsElement : Op → Bool
  | .element _ _ | .boolean _ _ | .struct _ _ _ _ | .forEach (some _) _ _ => true
  | .ifPresent _ _ | .attr _ _ | .forEach none _ _ => false

mutual

/-- Whether a step can do nothing but set attributes of the place. -/
def onlySetsAttributes : Op → Bool
  | .attr _ _ => true
  | .ifPresent _ body => allOnlySetAttributes body
  | .forEach none _ body => allOnlySetAttributes body
  | .forEach (some _) _ _ => false
  | .element _ _ | .boolean _ _ | .struct _ _ _ _ => false

/-- Whether some steps can do nothing but set attributes of the place. -/
def allOnlySetAttributes : List Op → Bool
  | [] => true
  | op :: rest => op.onlySetsAttributes && allOnlySetAttributes rest

end

theorem allOnlySetAttributes_iff {ops : List Op} :
    allOnlySetAttributes ops = true ↔ ∀ op ∈ ops, op.onlySetsAttributes = true := by
  induction ops with
  | nil => exact iff_of_true rfl nofun
  | cons op rest ih =>
    rw [allOnlySetAttributes, Bool.and_eq_true, ih, List.forall_mem_cons]

theorem anySetsAttribute_eq_false_iff {ops : List Op} :
    anySetsAttribute ops = false ↔ ∀ op ∈ ops, op.setsAttribute = false := by
  induction ops with
  | nil => exact iff_of_true rfl nofun
  | cons op rest ih =>
    rw [anySetsAttribute, Bool.or_eq_false_iff, ih, List.forall_mem_cons]

theorem anySetsAttribute_iff {ops : List Op} :
    anySetsAttribute ops = true ↔ ∃ op ∈ ops, op.setsAttribute = true := by
  rw [← Bool.not_eq_false, anySetsAttribute_eq_false_iff]
  simp

end WireBody.Program.Op

namespace WireBody.Run

open WireBody.Program
open WireBody.Request
open WireBody.Xml

variable {p : Program} {place : Place} {scope : Scope}

/-- What holds of nothing, of the single attributes and the single elements of some steps and of
those inside them, and is kept by putting content together, holds of all that these steps write. -/
theorem content_of_runOps {P : Content → Prop} {T : Op → Prop}
    (guarded : ∀ {field : String} {body : List Op}, T (.ifPresent field body) → ∀ op ∈ body, T op)
    (each : ∀ {source : Source} {body : List Op}, T (.forEach none source body) → ∀ op ∈ body, T op)
    (empty : P .empty) (append : ∀ {c d : Content}, P c → P d → P (c ++ d))
    (single : ∀ {name : String} {source : Source}, T (.attr name source) →
      ∀ value, P ⟨[(name, value)], []⟩)
    (element : ∀ {op : Op} {n : Node}, T op → op.addsElement = true → n.IsElement → P (.child n))
    {ops : List Op} (steps : ∀ op ∈ ops, T op) {content : Content}
    (written : runOps p place scope ops = .ok content) : P content := by
  revert steps content
  refine (runOps.mutual_induct p
    (fun place scope ops => (∀ op ∈ ops, T op) → ∀ {c}, runOps p place scope ops = .ok c → P c)
    (fun place scope op => T op → ∀ {c}, runOp p place scope op = .ok c → P c)
    (fun place scope body items below =>
      (∀ op ∈ body, T op) → ∀ {c}, runItems p place scope body items below = .ok c → P c)
    ?nil ?cons ?absent ?present ?element ?attr ?boolean ?notStruct ?noRoutine ?struct
    ?notList ?wrapped ?flattened ?noItems ?items).1 place scope ops
  case nil =>
    intro place scope _ c written
    rw [runOps_nil] at written
    cases written
    exact empty
  case cons =>
    intro place scope op rest ihOp ihRest steps c written
    obtain ⟨own, others⟩ := List.forall_mem_cons.1 steps
    obtain ⟨first, later, firstWritten, laterWritten, rfl⟩ := runOps_cons_eq_ok_iff.1 written
    exact append (ihOp own firstWritten) (ihRest others laterWritten)
  case absent =>
    intro place scope field body absent _ c written
    rw [runOp_ifPresent_of_none body absent] at written
    cases written
    exact empty
  case present =>
    intro place scope field body v found ih own c written
    rw [runOp_ifPresent_of_some body found] at written
    exact ih (guarded own) written
  case element =>
    intro place scope tag source own c written
    rw [runOp_element] at written
    obtain ⟨v, -, written⟩ := bind_eq_ok_iff.1 written
    obtain ⟨text, -, written⟩ := bind_eq_ok_iff.1 written
    cases written
    exact element own rfl trivial
  case attr =>
    intro place scope name source own c written
    rw [runOp_attr] at written
    obtain ⟨v, -, written⟩ := bind_eq_ok_iff.1 written
    obtain ⟨text, -, written⟩ := bind_eq_ok_iff.1 written
    cases place with
    | document => cases written
    | element =>
      cases written
      exact single own text
  case boolean =>
    intro place scope tag source own c written
    rw [runOp_boolean] at written
    obtain ⟨v, -, written⟩ := bind_eq_ok_iff.1 written
    obtain ⟨text, -, written⟩ := bind_eq_ok_iff.1 written
    cases written
    exact element own rfl trivial
  case notStruct =>
    intro place scope tag declared shape source e failed _ c written
    rw [runOp_struct_of_error failed] at written
    cases written
  case noRoutine =>
    intro place scope tag declared shape source fields required _ missing _ c written
    rw [runOp_struct_of_missing required missing] at written
    cases written
  case struct =>
    intro place scope tag declared shape source fields required _ r routine _ own c written
    rw [runOp_struct required routine] at written
    obtain ⟨inner, -, written⟩ := bind_eq_ok_iff.1 written
    cases written
    exact element own rfl trivial
  case notList =>
    intro place scope wrapper source body e failed _ c written
    rw [runOp_forEach_of_error body failed] at written
    cases written
  case wrapped =>
    intro place scope source body items tag listed _ own c written
    rw [runOp_forEach_some body listed] at written
    obtain ⟨inner, -, written⟩ := bind_eq_ok_iff.1 written
    cases written
    exact element own rfl trivial
  case flattened =>
    intro place scope source body items listed ih own c written
    rw [runOp_forEach_none body listed] at written
    exact ih (each own) written
  case noItems =>
    intro place scope body below _ _ c written
    rw [runItems_nil] at written
    cases written
    exact empty
  case items =>
    intro place scope body v rest below _ ihFirst ihRest steps c written
    obtain ⟨first, others, firstWritten, othersWritten, rfl⟩ := runItems_cons_eq_ok_iff.1 written
    exact append (ihFirst steps firstWritten) (ihRest steps othersWritten)

/-- The children that steps write are elements. -/
theorem elements_of_runOps {ops : List Op} {content : Content}
    (written : runOps p place scope ops = .ok content) : ∀ n ∈ content.children, n.IsElement := by
  refine content_of_runOps (P := fun c => ∀ n ∈ c.children, n.IsElement) (T := fun _ => True)
    (fun _ _ _ => trivial) (fun _ _ _ => trivial) nofun ?_ (fun _ _ => nofun) ?_
    (fun _ _ => trivial) written
  · intro c d first others
    rw [Content.children_append]
    exact List.forall_mem_append.2 ⟨first, others⟩
  · intro op n _ _ isElement
    exact List.forall_mem_singleton.2 isElement

/-- Steps that set no attribute write elements alone. -/
theorem attributes_of_runOps {ops : List Op} (plain : Op.anySetsAttribute ops = false)
    {content : Content} (written : runOps p place scope ops = .ok content) :
    content.attributes = [] := by
  refine content_of_runOps (P := fun c => c.attributes = []) (T := fun op => op.setsAttribute = false)
    ?_ ?_ rfl ?_ ?_ (fun _ _ _ => rfl) (Op.anySetsAttribute_eq_false_iff.1 plain) written
  · intro field body plain
    rw [Op.setsAttribute] at plain
    exact Op.anySetsAttribute_eq_false_iff.1 plain
  · intro source body plain
    rw [Op.setsAttribute] at plain
    exact Op.anySetsAttribute_eq_false_iff.1 plain
  · intro c d first others
    rw [Content.attributes_append, first, others, List.append_nil]
  · intro name source plain
    rw [Op.setsAttribute] at plain
    cases plain

/-- Steps that can only set attributes write no elements. -/
theorem children_of_runOps {ops : List Op} (only : Op.allOnlySetAttributes ops = true)
    {content : Content} (written : runOps p place scope ops = .ok content) :
    content.children = [] := by
  refine content_of_runOps (P := fun c => c.children = [])
    (T := fun op => op.onlySetsAttributes = true) ?_ ?_ rfl ?_ (fun _ _ => rfl) ?_
    (Op.allOnlySetAttributes_iff.1 only) written
  · intro field body only
    rw [Op.onlySetsAttributes] at only
    exact Op.allOnlySetAttributes_iff.1 only
  · intro source body only
    rw [Op.onlySetsAttributes] at only
    exact Op.allOnlySetAttributes_iff.1 only
  · intro c d first others
    rw [Content.children_append, first, others, List.append_nil]
  · intro op n only adds _
    cases op with
    | forEach wrapper source body =>
      cases wrapper with
      | none => cases adds
      | some tag =>
        rw [Op.onlySetsAttributes] at only
        cases only
    | attr name source => cases adds
    | ifPresent field body => cases adds
    | element tag source | boolean tag source | struct tag declared shape source =>
      rw [Op.onlySetsAttributes] at only
      cases only

/-- A document consists of elements. -/
theorem elements_of_run {request : Option Value} {forest : Forest}
    (ran : p.run request = .ok (.document forest)) : ∀ n ∈ forest, n.IsElement := by
  rcases routine_of_run ran with rfl | ⟨shape, routine, scope, content, -, written, rfl⟩
  · exact nofun
  · exact elements_of_runOps written

end WireBody.Run
