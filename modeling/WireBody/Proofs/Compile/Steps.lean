import WireBody.Proofs.Outcome
import WireBody.Proofs.Service.Carries

/-!
# What steps there are

Everything that compiling a member can give, said once: `StepOf` for the value of a shape and
`MemberStepOf` for a member of a structure.  Compiling a member and a routine only ever gives these.
-/

set_option autoImplicit false

namespace WireBody.Compile

open WireBody.Program
open WireBody.Service

theorem shapeOf_eq_ok_iff {g : Graph} {name : String} {s : Shape} :
    shapeOf g name = .ok s ↔ g.shapes.get? name = some s := by
  rw [← Graph.shape_eq_ok_iff]
  unfold shapeOf
  split <;> rename_i h <;> simp [h]

/-! ## Values -/

/-- The steps that write a value of a shape as a member, found at a source. -/
inductive StepOf (g : Graph) : Member → Shape → Source → Op → Prop
  | struct {m : Member} {s : Shape} {source : Source} {f : Fields} :
      s.kind = .struct f →
      StepOf g m s source (.struct m.tag (namespaceFor m s) s.name source)
  | text {m : Member} {s : Shape} {source : Source} {k : Scalar} :
      s.kind = .scalar k → k.isText = true → StepOf g m s source (textStep m source)
  | boolean {m : Member} {s : Shape} {source : Source} :
      s.kind = .scalar .boolean → m.asAttribute = false →
      StepOf g m s source (.boolean m.tag source)
  | flattened {m item : Member} {s element : Shape} {source : Source} {op : Op} :
      s.kind = .list item true → g.shapes.get? item.target = some element →
      StepOf g m element .item op → StepOf g m s source (.forEach none source [op])
  | wrapped {m item : Member} {s element : Shape} {source : Source} {op : Op} :
      s.kind = .list item false → g.shapes.get? item.target = some element →
      StepOf g item element .item op → StepOf g m s source (.forEach (some m.tag) source [op])

/-- Where a list has a step its items have a shape. -/
theorem StepOf.element {g : Graph} {m : Member} {s : Shape} {source : Source} {op : Op}
    (step : StepOf g m s source op) {item : Member} {flattened : Bool}
    (isList : s.kind = .list item flattened) : ∃ e, g.shapes.get? item.target = some e := by
  cases step with
  | struct other | text other _ | boolean other _ => cases isList.symm.trans other
  | flattened isList' found _ | wrapped isList' found _ =>
    cases isList.symm.trans isList'
    exact ⟨_, found⟩

theorem stepOf_of_scalarStep {g : Graph} {m : Member} {s : Shape} {source : Source} {k : Scalar}
    {op : Op} (isScalar : s.kind = .scalar k) (compiled : scalarStep m s source k = .ok op) :
    StepOf g m s source op := by
  unfold scalarStep at compiled
  split at compiled
  · cases compiled
    exact .text isScalar rfl
  · cases compiled
    exact .text isScalar rfl
  · split at compiled
    · cases compiled
    · rename_i plain
      cases compiled
      exact .boolean isScalar (Bool.not_eq_true _ ▸ plain)
  all_goals cases compiled

/-- Compiling a value gives one of the steps there are. -/
theorem stepOf_of_stepFor {g : Graph} {bound : Nat} {m : Member} {s : Shape} {source : Source}
    {op : Op} (compiled : stepFor g bound m s source = .ok op) : StepOf g m s source op := by
  fun_induction stepFor g bound m s source generalizing op with
  | case1 bound m s source f isStruct =>
    cases compiled
    exact .struct isStruct
  | case2 => cases compiled
  | case3 bound m s source k isScalar => exact stepOf_of_scalarStep isScalar compiled
  | case4 => cases compiled
  | case5 => cases compiled
  | case6 m s source item element found bound isList ih =>
    obtain ⟨inner, below, rfl⟩ := map_eq_ok_iff.1 compiled
    exact .flattened isList (shapeOf_eq_ok_iff.1 found) (ih below)
  | case7 m s source item flattened isList element found bound plain ih =>
    obtain ⟨inner, below, rfl⟩ := map_eq_ok_iff.1 compiled
    rw [Bool.not_eq_true] at plain
    exact .wrapped (plain ▸ isList) (shapeOf_eq_ok_iff.1 found) (ih below)

/-! ## Members -/

/-- The steps that write a member of a structure: its field whatever there is, or its field once it
was found present. -/
inductive MemberStepOf (g : Graph) : Member → Op → Prop
  | always {m : Member} {s : Shape} {op : Op} :
      g.shapes.get? m.target = some s → isUnconditional m s = true →
      StepOf g m s (.field m.label) op → MemberStepOf g m op
  | ifPresent {m : Member} {s : Shape} {op : Op} :
      g.shapes.get? m.target = some s → isUnconditional m s = false →
      StepOf g m s .present op → MemberStepOf g m (.ifPresent m.label [op])

theorem memberStepOf_of_memberStep {g : Graph} {m : Member} {op : Op}
    (compiled : memberStep g m = .ok op) : MemberStepOf g m op := by
  unfold memberStep at compiled
  split at compiled
  · cases compiled
  · rename_i s found
    have found := shapeOf_eq_ok_iff.1 found
    split at compiled
    · rename_i always
      exact .always found always (stepOf_of_stepFor compiled)
    · rename_i guarded
      obtain ⟨inner, below, rfl⟩ := map_eq_ok_iff.1 compiled
      exact .ifPresent found (Bool.not_eq_true _ ▸ guarded) (stepOf_of_stepFor below)

/-! ## Routines -/

/-- A routine has one step for each body member of its structure, in their order. -/
theorem steps_of_routineOf {g : Graph} {name : String} {r : Routine}
    (compiled : routineOf g name = .ok r) :
    ∃ s f, g.shapes.get? name = some s ∧ s.kind = .struct f ∧
      List.Forall₂ (MemberStepOf g) f.bodyMembers r.ops := by
  unfold routineOf at compiled
  split at compiled
  · cases compiled
  · rename_i s found
    split at compiled
    · rename_i f isStruct
      obtain ⟨ops, steps, rfl⟩ := map_eq_ok_iff.1 compiled
      refine ⟨s, f, shapeOf_eq_ok_iff.1 found, isStruct, ?_⟩
      exact (mapM_eq_ok_iff.1 steps).imp fun m op step =>
        memberStepOf_of_memberStep (mapError_eq_ok_iff.1 step)
    · cases compiled

end WireBody.Compile
