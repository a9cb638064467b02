import WireBody.Run.Interp
import WireBody.Proofs.Outcome

/-!
# What running a step does

One equation for each step of a program, in the terms of the value that the step finds, so that
nothing else has to open the definition of a run.
-/

set_option autoImplicit false

namespace WireBody.Run

open WireBody.Program
open WireBody.Request
open WireBody.Xml

variable {p : Program} {place : Place} {scope : Scope}

/-! ## What a step finds -/

theorem require_of_some {source : Source} {v : Value} (found : scope.resolve source = some v)
    (name : String) : scope.require source name = .ok v :=
  Scope.require_eq_ok_iff.2 found

theorem require_of_none {source : Source} (absent : scope.resolve source = none) (name : String) :
    scope.require source name = .error (.missingValue name) := by
  rw [Scope.require, absent]

theorem requireFields_of_struct {source : Source} {fields : List (String × Value)}
    (found : scope.resolve source = some (.struct fields)) (name : String) :
    scope.requireFields source name = .ok fields := by
  rw [Scope.requireFields, require_of_some found]
  rfl

theorem requireFields_of_other {source : Source} {v : Value} (found : scope.resolve source = some v)
    (other : v.fields? = none) (name : String) :
    scope.requireFields source name = .error (.typeMismatch name .struct v.kind) := by
  rw [Scope.requireFields, require_of_some found]
  simp only [other]

theorem requireFields_of_none {source : Source} (absent : scope.resolve source = none)
    (name : String) : scope.requireFields source name = .error (.missingValue name) := by
  rw [Scope.requireFields, require_of_none absent]

theorem items_of_none {source : Source} (absent : scope.resolve source = none) (name : String) :
    scope.items source name = .ok [] := by
  rw [Scope.items, absent]

theorem items_of_list {source : Source} {items : List Value}
    (found : scope.resolve source = some (.list items)) (name : String) :
    scope.items source name = .ok items := by
  rw [Scope.items, found]

theorem items_of_other {source : Source} {v : Value} (found : scope.resolve source = some v)
    (other : v.kind ≠ .list) (name : String) :
    scope.items source name = .error (.typeMismatch name .list v.kind) := by
  rw [Scope.items, found]
  cases v <;> simp_all [Value.kind]

/-! ## Sequences -/

@[simp] theorem runOps_nil : runOps p place scope [] = .ok .empty := by
  rw [runOps]

theorem runOps_cons (op : Op) (rest : List Op) :
    runOps p place scope (op :: rest) = (do
      let first ← runOp p place scope op
      let others ← runOps p place scope rest
      return first ++ others) := by
  rw [runOps]

/-- A single step is a sequence of its own. -/
theorem runOps_singleton (op : Op) : runOps p place scope [op] = runOp p place scope op := by
  rw [runOps_cons, runOps_nil]
  cases runOp p place scope op with
  | error e => rfl
  | ok c => rw [ok_bind, ok_bind, Content.append_empty, pure_eq_ok]

/-- What some steps and then others write. -/
theorem runOps_append (ops more : List Op) :
    runOps p place scope (ops ++ more) = (do
      let first ← runOps p place scope ops
      let others ← runOps p place scope more
      return first ++ others) := by
  induction ops with
  | nil =>
    rw [List.nil_append, runOps_nil, ok_bind]
    cases runOps p place scope more with
    | error e => rfl
    | ok c => rw [ok_bind, Content.empty_append, pure_eq_ok]
  | cons op rest ih =>
    rw [List.cons_append, runOps_cons, ih, runOps_cons]
    cases runOp p place scope op with
    | error e => rfl
    | ok c =>
      cases runOps p place scope rest with
      | error e => rfl
      | ok d =>
        cases runOps p place scope more with
        | error e => rfl
        | ok e => simp only [ok_bind, pure_eq_ok, Content.append_assoc]

@[simp] theorem runItems_nil (body : List Op)
    (below : ∀ v ∈ ([] : List Value), sizeOf v < sizeOf scope.fields) :
    runItems p place scope body [] below = .ok .empty := by
  rw [runItems]

theorem runItems_cons (body : List Op) (v : Value) (rest : List Value)
    (below : ∀ w ∈ v :: rest, sizeOf w < sizeOf scope.fields) :
    runItems p place scope body (v :: rest) below = (do
      let first ← runOps p place (scope.withItem v (below v List.mem_cons_self)) body
      let others ← runItems p place scope body rest
        fun w member => below w (List.mem_cons_of_mem v member)
      return first ++ others) := by
  rw [runItems]

/-- Steps write something when the first of them and the others do. -/
theorem runOps_cons_eq_ok_iff {op : Op} {rest : List Op} {c : Content} :
    runOps p place scope (op :: rest) = .ok c ↔
      ∃ first others, runOp p place scope op = .ok first ∧
        runOps p place scope rest = .ok others ∧ c = first ++ others := by
  rw [runOps_cons]
  exact both_eq_ok_iff

theorem runItems_cons_eq_ok_iff {body : List Op} {v : Value} {rest : List Value} {c : Content}
    {below : ∀ w ∈ v :: rest, sizeOf w < sizeOf scope.fields} :
    runItems p place scope body (v :: rest) below = .ok c ↔
      ∃ first others,
        runOps p place (scope.withItem v (below v List.mem_cons_self)) body = .ok first ∧
        runItems p place scope body rest (fun w member => below w (List.mem_cons_of_mem v member)) =
          .ok others ∧ c = first ++ others := by
  rw [runItems_cons]
  exact both_eq_ok_iff

/-! ## Steps -/

theorem runOp_element (tag : String) (source : Source) :
    runOp p place scope (.element tag source) = (do
      let v ← scope.require source tag
      let text ← textOf tag v
      return .child (.ofText tag text)) := by
  rw [runOp]

theorem runOp_attr (name : String) (source : Source) :
    runOp p place scope (.attr name source) = (do
      let v ← scope.require source name
      let text ← textOf name v
      place.setAttribute name text) := by
  rw [runOp]

theorem runOp_boolean (tag : String) (source : Source) :
    runOp p place scope (.boolean tag source) = (do
      let v ← scope.require source tag
      let text ← booleanOf tag v
      return .child (.ofText tag text)) := by
  rw [runOp]

theorem runOp_ifPresent_of_none {field : String} (body : List Op)
    (absent : scope.fields.lookup field = none) :
    runOp p place scope (.ifPresent field body) = .ok .empty := by
  rw [runOp]
  split
  · rfl
  · rename_i v found
    rw [absent] at found
    cases found

theorem runOp_ifPresent_of_some {field : String} {v : Value} (body : List Op)
    (found : scope.fields.lookup field = some v) :
    runOp p place scope (.ifPresent field body) =
      runOps p place (scope.withPresent v (sizeOf_lt_of_lookup found)) body := by
  rw [runOp]
  split
  · rename_i absent
    rw [found] at absent
    cases absent
  · rename_i w found'
    cases found.symm.trans found'
    rfl

theorem runOp_struct {tag : String} {declared : Option NamespaceDeclaration} {shape : String}
    {source : Source} {fields : List (String × Value)} {r : Routine}
    (required : scope.requireFields source tag = .ok fields) (own : p.routine? shape = some r) :
    runOp p place scope (.struct tag declared shape source) = (do
      let content ← runOps p .element (.ofFields fields) r.ops
      return .child (elementOf tag declared content)) := by
  rw [runOp]
  split
  · rename_i e failed
    rw [required] at failed
    cases failed
  · rename_i fields' required'
    cases required.symm.trans required'
    rw [own]

theorem runOp_struct_of_missing {tag : String} {declared : Option NamespaceDeclaration}
    {shape : String} {source : Source} {fields : List (String × Value)}
    (required : scope.requireFields source tag = .ok fields) (missing : p.routine? shape = none) :
    runOp p place scope (.struct tag declared shape source) = .error (.missingRoutine shape) := by
  rw [runOp]
  split
  · rename_i e failed
    rw [required] at failed
    cases failed
  · rename_i fields' required'
    cases required.symm.trans required'
    rw [missing]

theorem runOp_struct_of_error {tag : String} {declared : Option NamespaceDeclaration}
    {shape : String} {source : Source} {e : RunError}
    (failed : scope.requireFields source tag = .error e) :
    runOp p place scope (.struct tag declared shape source) = .error e := by
  rw [runOp]
  split
  · rename_i e' failed'
    cases failed.symm.trans failed'
    rfl
  · rename_i fields required
    rw [failed] at required
    cases required

/-- A structure is written by its routine, inside an element. -/
theorem runOp_struct_eq_map {tag : String} {declared : Option NamespaceDeclaration}
    {shape : String} {source : Source} {fields : List (String × Value)}
    (required : scope.requireFields source tag = .ok fields) :
    runOp p place scope (.struct tag declared shape source) =
      (runRoutine p .element shape fields).map fun c => .child (elementOf tag declared c) := by
  unfold runRoutine
  split
  · rename_i missing
    exact runOp_struct_of_missing required missing
  · rename_i r own
    rw [runOp_struct required own, return_eq_map]

theorem runOp_forEach_of_error {wrapper : Option String} {source : Source} {e : RunError}
    (body : List Op) (failed : scope.items source (listName wrapper) = .error e) :
    runOp p place scope (.forEach wrapper source body) = .error e := by
  rw [runOp]
  split
  · rename_i e' failed'
    cases failed.symm.trans failed'
    rfl
  · rename_i items listed
    rw [failed] at listed
    cases listed

theorem runOp_forEach_none {source : Source} {items : List Value} (body : List Op)
    (listed : scope.items source (listName none) = .ok items) :
    runOp p place scope (.forEach none source body) =
      runItems p place scope body items (Scope.items_lt listed) := by
  rw [runOp]
  split
  · rename_i e failed
    rw [listed] at failed
    cases failed
  · rename_i items' listed'
    cases listed.symm.trans listed'
    rfl

theorem runOp_forEach_some {tag : String} {source : Source} {items : List Value} (body : List Op)
    (listed : scope.items source (listName (some tag)) = .ok items) :
    runOp p place scope (.forEach (some tag) source body) = (do
      let content ← runItems p .element scope body items (Scope.items_lt listed)
      return .child (elementOf tag none content)) := by
  rw [runOp]
  split
  · rename_i e failed
    rw [listed] at failed
    cases failed
  · rename_i items' listed'
    cases listed.symm.trans listed'
    rfl

/-! ## Documents -/

/-- A document without elements, or what the steps of a routine write. -/
theorem routine_of_run {request : Option Value} {forest : Forest}
    (ran : p.run request = .ok (.document forest)) :
    forest = [] ∨ ∃ shape routine scope content, p.routine? shape = some routine ∧
      runOps p .document scope routine.ops = .ok content ∧ forest = content.children := by
  unfold Program.run at ran
  obtain ⟨fields, -, ran⟩ := bind_eq_ok_iff.1 ran
  split at ran
  · cases ran
    exact .inl rfl
  · obtain ⟨bytes, -, ran⟩ := bind_eq_ok_iff.1 ran
    cases ran
  · rename_i root payload _
    obtain ⟨found, -, ran⟩ := bind_eq_ok_iff.1 ran
    cases found with
    | none =>
      cases ran
      exact .inl rfl
    | some present =>
      obtain ⟨content, written, ran⟩ := bind_eq_ok_iff.1 ran
      cases ran
      unfold runRoutine at written
      split at written
      · cases written
      · rename_i routine own
        exact .inr ⟨root, routine, _, content, own, written, rfl⟩

end WireBody.Run
