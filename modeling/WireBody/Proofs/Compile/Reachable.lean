import Mathlib.Logic.Relation
import WireBody.Proofs.Compile.Coverage
import WireBody.Proofs.Service.Supported

/-!
# What the work list gathers

A structure refers to another one if a member that travels in its body points there, by itself or
through lists inside one another.  The routine of a structure calls just those that it refers to, so
the work list goes along these references: it gathers the routines of all that its root reaches and
of nothing else, and it fails only where one of these has no routine.

Main statements: `mem_references_iff` ties calls to references, and `routines_reach` says what the
work list ends with.
-/

set_option autoImplicit false

namespace WireBody.Compile

open WireBody.Program
open WireBody.Service

/-! ## References -/

/-- A body member of the structure `owner` points to the structure `other`, by itself or through
lists. -/
inductive RefersTo (g : Graph) (owner other : String) : Prop
  | member {s t e : Shape} {f f' : Fields} {m : Member} {flat : Bool} :
      g.shapes.get? owner = some s → s.kind = .struct f → m ∈ f.bodyMembers →
      g.shapes.get? m.target = some t → LeadsTo g t flat e → e.kind = .struct f' →
      e.name = other → RefersTo g owner other

/-- References lead from one structure to another. -/
def Reaches (g : Graph) : String → String → Prop := Relation.ReflTransGen (RefersTo g)

variable {g : Graph}

/-- References lead to structures of the graph alone. -/
theorem RefersTo.stored {owner other : String} (refers : RefersTo g owner other) :
    ∃ s, g.shapes.get? other = some s := by
  obtain ⟨-, -, -, target, leads, -, rfl⟩ := refers
  exact ⟨_, leads.stored (g.shape_named target ▸ target)⟩

/-- Lists lead from a shape that is neither a list nor a structure to no structure. -/
theorem not_leadsTo_struct {s e : Shape} {f : Fields} {flat : Bool} (single : s.isList = false)
    (noStruct : ∀ f, s.kind ≠ .struct f) (leads : LeadsTo g s flat e) : e.kind ≠ .struct f := by
  rw [(leads.eq_of_not_list single).2]
  exact noStruct f

/-- A step calls the routine of the structure that lists lead to, if they lead to one. -/
theorem mem_references_iff {m : Member} {s : Shape} {source : Source} {op : Op}
    (step : StepOf g m s source op) {callee : String} :
    callee ∈ op.references ↔
      ∃ flat e f, LeadsTo g s flat e ∧ e.kind = .struct f ∧ e.name = callee := by
  induction step with
  | @struct m s source f isStruct =>
    have single : s.isList = false := by rw [Shape.isList, isStruct]
    rw [Op.references, List.mem_singleton]
    constructor
    · rintro rfl
      exact ⟨true, s, f, .here single, isStruct, rfl⟩
    · rintro ⟨flat, e, f', leads, -, rfl⟩
      rw [(leads.eq_of_not_list single).2]
  | @text m s source k isScalar isText =>
    have none : (textStep m source).references = [] := by
      unfold textStep
      split <;> rfl
    have single : s.isList = false := by rw [Shape.isList, isScalar]
    have noStruct (f : Fields) : s.kind ≠ .struct f := by
      rw [isScalar]
      exact Kind.noConfusion
    rw [none]
    refine iff_of_false List.not_mem_nil ?_
    rintro ⟨flat, e, f, leads, isStruct, -⟩
    exact not_leadsTo_struct single noStruct leads isStruct
  | @boolean m s source isBoolean _ =>
    have single : s.isList = false := by rw [Shape.isList, isBoolean]
    have noStruct (f : Fields) : s.kind ≠ .struct f := by
      rw [isBoolean]
      exact Kind.noConfusion
    refine iff_of_false List.not_mem_nil ?_
    rintro ⟨flat, e, f, leads, isStruct, -⟩
    exact not_leadsTo_struct single noStruct leads isStruct
  | flattened isList found _ ih =>
    rw [references_forEach, ih]
    simp [leadsTo_list_iff isList found]
  | wrapped isList found _ ih =>
    rw [references_forEach, ih]
    simp [leadsTo_list_iff isList found, or_and_right, exists_or]

/-- What the step of a member calls is what lists lead to from the member. -/
theorem mem_references_member_iff {m : Member} {op : Op} (step : MemberStepOf g m op)
    {callee : String} :
    callee ∈ op.references ↔ ∃ t flat e f, g.shapes.get? m.target = some t ∧
      LeadsTo g t flat e ∧ e.kind = .struct f ∧ e.name = callee := by
  cases step with
  | always found _ step =>
    rw [mem_references_iff step]
    simp [found]
  | ifPresent found _ step =>
    rw [references_ifPresent, mem_references_iff step]
    simp [found]

/-- A routine calls the routines of the structures that its own refers to. -/
theorem mem_references_routine_iff {name : String} {r : Routine}
    (compiled : routineOf g name = .ok r) {callee : String} :
    callee ∈ r.references ↔ RefersTo g name callee := by
  obtain ⟨s, f, found, isStruct, steps⟩ := steps_of_routineOf compiled
  constructor
  · intro referred
    obtain ⟨op, listed, referred⟩ := exists_of_mem_allReferences referred
    obtain ⟨m, member, step⟩ := exists_of_mem_right steps listed
    obtain ⟨t, flat, e, f', target, leads, isStruct', named⟩ :=
      (mem_references_member_iff step).1 referred
    exact .member found isStruct member target leads isStruct' named
  · rintro ⟨found', isStruct', member, target, leads, ends, named⟩
    cases found.symm.trans found'
    cases isStruct.symm.trans isStruct'
    obtain ⟨op, listed, step⟩ := exists_of_mem_left steps member
    exact mem_allReferences listed
      ((mem_references_member_iff step).2 ⟨_, _, _, _, target, leads, ends, named⟩)

/-- The routine of a structure bears its name. -/
theorem shape_of_routineOf {name : String} {r : Routine} (compiled : routineOf g name = .ok r) :
    r.shape = name := by
  unfold routineOf at compiled
  split at compiled
  · cases compiled
  · rename_i s found
    split at compiled
    · obtain ⟨ops, -, rfl⟩ := map_eq_ok_iff.1 compiled
      exact g.shape_named (shapeOf_eq_ok_iff.1 found)
    · cases compiled

/-! ## The work list -/

/-- The work list stays with what its root reaches. -/
theorem gathered_of_routines (g : Graph) (root : String) :
    Gathered g (Reaches g root) (routines g root) :=
  gathered_of_root (fun _ _ reached compiled _ referred =>
    reached.tail ((mem_references_routine_iff compiled).1 referred)) .refl

/-- Closed routines that have the root's have those of all that it reaches. -/
theorem Closed.get?_of_reaches {rs : NameMap Routine} (closed : Closed g rs) {root name : String}
    (own : ∃ r, rs.get? root = some r) (reached : Reaches g root name) :
    ∃ r, rs.get? name = some r := by
  induction reached with
  | refl => exact own
  | tail _ refers ih =>
    obtain ⟨r, found⟩ := ih
    have referred := (mem_references_routine_iff (closed.compiled found)).2 refers
    exact NameMap.contains_iff.1 (closed.closed found _ referred)

/-- The routines of a structure are worked out exactly if all that it reaches has one.  They are
then those of what it reaches and of nothing else, each under its own name, and they call no others.
If they are not, then something that it reaches fails in this way. -/
theorem routines_reach (g : Graph) (root : String) :
    ((∃ rs, routines g root = .ok rs) ↔
      ∀ name, Reaches g root name → ∃ r, routineOf g name = .ok r) ∧
    (∀ rs, routines g root = .ok rs →
      (∀ name, name ∈ rs.keys ↔ Reaches g root name) ∧
      ∀ name r, rs.get? name = some r →
        routineOf g name = .ok r ∧ r.shape = name ∧ ∀ callee ∈ r.references, callee ∈ rs.keys) ∧
    ∀ e, routines g root = .error e →
      ∃ name, Reaches g root name ∧ routineOf g name = .error e := by
  have gathered := gathered_of_routines g root
  refine ⟨⟨?all, ?ends⟩, ?routines, ?failure⟩
  case all =>
    rintro ⟨rs, worked⟩ name reached
    obtain ⟨closed, own⟩ := closed_of_routines worked
    obtain ⟨r, found⟩ := closed.get?_of_reaches own reached
    exact ⟨r, closed.compiled found⟩
  case ends =>
    intro all
    cases worked : routines g root with
    | ok rs => exact ⟨rs, rfl⟩
    | error e =>
      rw [worked] at gathered
      obtain ⟨name, reached, failed⟩ := gathered
      obtain ⟨r, compiled⟩ := all name reached
      rw [failed] at compiled
      cases compiled
  case routines =>
    intro rs worked
    obtain ⟨closed, own⟩ := closed_of_routines worked
    rw [worked] at gathered
    constructor
    · intro name
      rw [NameMap.mem_keys_iff]
      constructor
      · intro found
        exact gathered name (NameMap.contains_iff.2 found)
      · exact closed.get?_of_reaches own
    · intro name r found
      have compiled := closed.compiled found
      refine ⟨compiled, shape_of_routineOf compiled, fun callee referred => ?_⟩
      exact NameMap.mem_keys_iff.2 (NameMap.contains_iff.1 (closed.closed found callee referred))
  case failure =>
    intro e failed
    rw [failed] at gathered
    exact gathered

/-- A request refers to a folder, and a folder to itself. -/
example : (routines folderGraph "Request").map NameMap.keys = .ok ["Folder", "Request"] := by
  cbv

end WireBody.Compile
