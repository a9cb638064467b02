import WireBody.Proofs.Compile.Closure

/-!
# What the steps of a program read is there

A step may read the field that a step around it has found present, or the item that a step around it
is at.  `Op.scoped` checks that it does so only inside such a step; the fields of the structure that
is written may be asked for anywhere.

Main statement: `scoped_of_program`, that the routines of a compiled program pass the check.
-/

set_option autoImplicit false

namespace WireBody.Program

/-- Whether a source may be read where a field has been found present or not, and where an item is
being written or not. -/
def Source.bound (present item : Bool) : Source → Bool
  | .field _ => true
  | .present => present
  | .item => item

mutual

/-- Whether a step reads a present field and an item only where there are such. -/
def Op.scoped (present item : Bool) : Op → Bool
  | .ifPresent _ body => Op.allScoped true item body
  | .forEach _ source body => source.bound present item && Op.allScoped present true body
  | .element _ source | .attr _ source | .boolean _ source | .struct _ _ _ source =>
    source.bound present item

/-- Whether all of some steps do. -/
def Op.allScoped (present item : Bool) : List Op → Bool
  | [] => true
  | op :: rest => op.scoped present item && Op.allScoped present item rest

end

@[simp] theorem Op.allScoped_singleton (present item : Bool) (op : Op) :
    Op.allScoped present item [op] = op.scoped present item := by
  rw [Op.allScoped, Op.allScoped, Bool.and_true]

/-- A routine starts with neither a present field nor an item. -/
def Routine.Scoped (r : Routine) : Prop := Op.allScoped false false r.ops = true

end WireBody.Program

namespace WireBody.Compile

open WireBody.Program
open WireBody.Service

variable {g : Graph}

/-- The step for a value reads nothing but the source it was made for, and the items below it. -/
theorem scoped_of_stepOf {m : Member} {s : Shape} {source : Source} {op : Op}
    (step : StepOf g m s source op) {present item : Bool}
    (bound : source.bound present item = true) : op.scoped present item = true := by
  induction step generalizing item with
  | struct _ => exact bound
  | @text m s source k _ _ =>
    unfold textStep
    split
    · exact bound
    · exact bound
  | boolean _ _ => exact bound
  | flattened _ _ _ ih =>
    rw [Op.scoped, Op.allScoped_singleton, bound, ih rfl]
    rfl
  | wrapped _ _ _ ih =>
    rw [Op.scoped, Op.allScoped_singleton, bound, ih rfl]
    rfl

theorem scoped_of_memberStepOf {m : Member} {op : Op} (step : MemberStepOf g m op) :
    op.scoped false false = true := by
  cases step with
  | always _ _ step => exact scoped_of_stepOf step rfl
  | ifPresent _ _ step =>
    rw [Op.scoped, Op.allScoped_singleton]
    exact scoped_of_stepOf step rfl

theorem allScoped_of_steps {members : List Member} {ops : List Op}
    (steps : List.Forall₂ (MemberStepOf g) members ops) : Op.allScoped false false ops = true := by
  induction steps with
  | nil => rfl
  | cons first _ ih => rw [Op.allScoped, scoped_of_memberStepOf first, ih, Bool.and_self]

/-- The routines of a program read present fields and items only where there are such. -/
theorem scoped_of_program {o : Operation} {p : WireBody.Program} (compiled : program g o = .ok p)
    {r : Routine} (member : r ∈ p.routines.values) : r.Scoped := by
  obtain ⟨name, found⟩ := NameMap.mem_values_iff.1 member
  obtain ⟨s, f, -, -, steps⟩ := steps_of_routineOf ((closed_of_program compiled).compiled found)
  exact allScoped_of_steps steps

end WireBody.Compile
