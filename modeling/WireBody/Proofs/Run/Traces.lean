import WireBody.Proofs.Run.Elements

/-!
# Runs with a record

What a run writes does not tell all that it did: a run that fails may have set attributes before, and
which routines were called cannot be seen.  So steps are taken once more with a record of what they
do: each child that they add to the place, each attribute that they set of it, and each routine that
they call.  The record of steps that fail ends with what they did before, and what a routine does
that they call is no part of it.

Main definition: `traceOps` takes steps with their record.

Main statements: `written_traceOps`, that the record says what the run writes, and `traceOps_congr`,
that it holds all calls.
-/

set_option autoImplicit false

namespace WireBody.Run

open WireBody.Program
open WireBody.Request
open WireBody.Xml

/-! ## Records -/

/-- What a step does. -/
inductive Action where
  /-- It adds a child to the place. -/
  | append (n : Node)
  /-- It sets an attribute of the place. -/
  | setAttribute (name value : String)
  /-- It calls the routine of a structure, to fill an element of its own. -/
  | call (shape : String) (fields : List (String × Value))

namespace Action

/-- What an action adds to the place. -/
def content : Action → Content
  | .append n => .child n
  | .setAttribute name value => ⟨[(name, value)], []⟩
  | .call _ _ => .empty

def isCall : Action → Bool
  | .call _ _ => true
  | .append _ | .setAttribute _ _ => false

theorem exists_of_isCall {a : Action} (isCall : a.isCall = true) :
    ∃ shape fields, a = .call shape fields := by
  cases a with
  | call shape fields => exact ⟨shape, fields, rfl⟩
  | append n => cases isCall
  | setAttribute name value => cases isCall

/-- What actions add to the place, one after the other. -/
def contents : List Action → Content
  | [] => .empty
  | a :: rest => a.content ++ contents rest

theorem contents_append (actions more : List Action) :
    contents (actions ++ more) = contents actions ++ contents more := by
  induction actions with
  | nil => rfl
  | cons a rest ih => rw [List.cons_append, contents, ih, contents, Content.append_assoc]

theorem contents_of_calls {actions : List Action} (calls : ∀ a ∈ actions, a.isCall = true) :
    contents actions = .empty := by
  induction actions with
  | nil => rfl
  | cons a rest ih =>
    obtain ⟨own, others⟩ := List.forall_mem_cons.1 calls
    obtain ⟨shape, fields, rfl⟩ := exists_of_isCall own
    rw [contents, ih others]
    rfl

end Action

/-- What came of something, and the actions that were taken for it, in order. -/
structure Traced (α : Type) where
  actions : List Action
  outcome : Except RunError α

namespace Traced

variable {α β : Type}

/-- What comes without an action. -/
def quiet (x : Except RunError α) : Traced α := ⟨[], x⟩

/-- The actions before a failure have been taken all the same. -/
def bind (x : Traced α) (f : α → Traced β) : Traced β :=
  match x.outcome with
  | .error e => ⟨x.actions, .error e⟩
  | .ok a => ⟨x.actions ++ (f a).actions, (f a).outcome⟩

instance : Monad Traced where
  pure a := quiet (.ok a)
  bind := bind

/-- Add a child to the place. -/
def append (n : Node) : Traced Unit := ⟨[.append n], .ok ()⟩

/-- Set an attribute of a place. -/
def setAttribute (place : Place) (name value : String) : Traced Unit :=
  ⟨[.setAttribute name value], (place.setAttribute name value).map fun _ => ()⟩

/-- Call the routine of a structure.  What it does is no part of the record. -/
def call (p : Program) (shape : String) (fields : List (String × Value)) : Traced Content :=
  ⟨[.call shape fields], runRoutine p .element shape fields⟩

/-- What is written to the place. -/
def written (x : Traced Unit) : Except RunError Content :=
  x.outcome.map fun _ => Action.contents x.actions

/-- Write to another place: the calls are calls all the same, and nothing else is done to this
one. -/
def elsewhere (x : Traced Unit) : Traced Content := ⟨x.actions.filter Action.isCall, x.written⟩

/-- What comes without an action, together with the fact that it is this that came. -/
def known (x : Except RunError α) : Traced {a // x = .ok a} :=
  match x with
  | .ok a => quiet (.ok ⟨a, rfl⟩)
  | .error e => quiet (.error e)

/-- Do something with a value, if there is one. -/
def ifSome (o : Option α) (f : {a // o = some a} → Traced Unit) : Traced Unit :=
  match o, f with
  | none, _ => return ()
  | some a, f => f ⟨a, rfl⟩

/-- Do something for each item of a list. -/
def forEach (items : List Value) (f : ∀ v ∈ items, Traced Unit) : Traced Unit :=
  match items with
  | [] => return ()
  | v :: rest => do
    f v List.mem_cons_self
    forEach rest fun w member => f w (List.mem_cons_of_mem v member)

end Traced

/-! ## Taking steps with a record -/

mutual

/-- Take some steps at a place, one after the other. -/
def traceOps (p : Program) (place : Place) (scope : Scope) : List Op → Traced Unit
  | [] => return ()
  | op :: rest => do
    traceOp p place scope op
    traceOps p place scope rest

/-- Take a step at a place. -/
def traceOp (p : Program) (place : Place) (scope : Scope) : Op → Traced Unit
  | .ifPresent field body =>
    .ifSome (scope.fields.lookup field) fun v =>
      traceOps p place (scope.withPresent v.1 (sizeOf_lt_of_lookup v.2)) body
  | .element tag source => do
    let v ← .quiet (scope.require source tag)
    let text ← .quiet (textOf tag v)
    .append (.ofText tag text)
  | .attr name source => do
    let v ← .quiet (scope.require source name)
    let text ← .quiet (textOf name v)
    .setAttribute place name text
  | .boolean tag source => do
    let v ← .quiet (scope.require source tag)
    let text ← .quiet (booleanOf tag v)
    .append (.ofText tag text)
  | .struct tag declared shape source => do
    let fields ← .quiet (scope.requireFields source tag)
    let content ← .call p shape fields
    .append (elementOf tag declared content)
  | .forEach none source body => do
    let items ← .known (scope.items source (listName none))
    .forEach items.1 fun v member =>
      traceOps p place (scope.withItem v (Scope.items_lt items.2 v member)) body
  | .forEach (some tag) source body => do
    let items ← .known (scope.items source (listName (some tag)))
    let content ← .elsewhere <| .forEach items.1 fun v member =>
      traceOps p .element (scope.withItem v (Scope.items_lt items.2 v member)) body
    .append (elementOf tag none content)

end

/-! ## What is written is what the record says -/

namespace Traced

variable {α β : Type}

theorem written_then (x y : Traced Unit) :
    (do x; y : Traced Unit).written = (do
      let c ← x.written
      let d ← y.written
      return c ++ d) := by
  obtain ⟨actions, outcome⟩ := x
  obtain ⟨more, result⟩ := y
  cases outcome with
  | error e => rfl
  | ok _ =>
    cases result with
    | error e => rfl
    | ok _ => exact congrArg Except.ok (Action.contents_append actions more)

@[simp] theorem written_quiet_bind (x : Except RunError α) (f : α → Traced Unit) :
    (quiet x >>= f).written = x >>= fun a => (f a).written := by
  cases x <;> rfl

theorem known_bind_of_ok {x : Except RunError α} {a : α} (h : x = .ok a)
    (f : {a // x = .ok a} → Traced β) : known x >>= f = f ⟨a, h⟩ := by
  cases h
  rfl

theorem known_bind_of_error {x : Except RunError α} {e : RunError} (h : x = .error e)
    (f : {a // x = .ok a} → Traced β) : known x >>= f = quiet (.error e) := by
  cases h
  rfl

theorem ifSome_of_none {o : Option α} (h : o = none) (f : {a // o = some a} → Traced Unit) :
    ifSome o f = return () := by
  cases h
  rfl

theorem ifSome_of_some {o : Option α} {a : α} (h : o = some a)
    (f : {a // o = some a} → Traced Unit) : ifSome o f = f ⟨a, h⟩ := by
  cases h
  rfl

@[simp] theorem written_append (n : Node) : (append n).written = .ok (.child n) :=
  congrArg Except.ok (Content.append_empty _)

@[simp] theorem written_setAttribute (place : Place) (name value : String) :
    (setAttribute place name value).written = place.setAttribute name value := by
  cases place <;> rfl

/-- Calls alone add nothing to the place, and then there is an element. -/
theorem written_append_of_calls {x : Traced Content} (calls : ∀ a ∈ x.actions, a.isCall = true)
    (build : Content → Node) :
    (x >>= fun c => append (build c)).written = x.outcome.map fun c => .child (build c) := by
  obtain ⟨actions, outcome⟩ := x
  cases outcome with
  | error e => rfl
  | ok c =>
    have added : Action.contents (actions ++ [.append (build c)]) = .child (build c) := by
      rw [Action.contents_append, Action.contents_of_calls calls, Content.empty_append]
      exact Content.append_empty _
    exact congrArg Except.ok added

end Traced

variable {p : Program} {place : Place} {scope : Scope}

theorem written_forEach {body : List Op} {items : List Value}
    {below : ∀ v ∈ items, sizeOf v < sizeOf scope.fields} {f : ∀ v ∈ items, Traced Unit}
    (each : ∀ v (member : v ∈ items),
      (f v member).written = runOps p place (scope.withItem v (below v member)) body) :
    (Traced.forEach items f).written = runItems p place scope body items below := by
  induction items with
  | nil =>
    rw [Traced.forEach, runItems_nil]
    rfl
  | cons v rest ih =>
    rw [Traced.forEach, runItems_cons, Traced.written_then, each v List.mem_cons_self,
      ih fun w member => each w (List.mem_cons_of_mem v member)]

mutual

/-- A run writes what the record says, and it fails where the record ends with a failure. -/
theorem written_traceOps (place : Place) (scope : Scope) :
    ∀ ops : List Op, (traceOps p place scope ops).written = runOps p place scope ops
  | [] => by
    rw [traceOps, runOps_nil]
    rfl
  | op :: rest => by
    rw [traceOps, runOps_cons, Traced.written_then, written_traceOp place scope op,
      written_traceOps place scope rest]

theorem written_traceOp (place : Place) (scope : Scope) :
    ∀ op : Op, (traceOp p place scope op).written = runOp p place scope op
  | .ifPresent field body => by
    cases found : scope.fields.lookup field with
    | none =>
      rw [traceOp, Traced.ifSome_of_none found, runOp_ifPresent_of_none body found]
      rfl
    | some v =>
      rw [traceOp, Traced.ifSome_of_some found, runOp_ifPresent_of_some body found]
      exact written_traceOps place _ body
  | .element tag source => by
    rw [traceOp, runOp_element]
    simp only [Traced.written_quiet_bind, Traced.written_append, pure_eq_ok]
  | .attr name source => by
    rw [traceOp, runOp_attr]
    simp only [Traced.written_quiet_bind, Traced.written_setAttribute]
  | .boolean tag source => by
    rw [traceOp, runOp_boolean]
    simp only [Traced.written_quiet_bind, Traced.written_append, pure_eq_ok]
  | .struct tag declared shape source => by
    rw [traceOp, Traced.written_quiet_bind]
    cases required : scope.requireFields source tag with
    | error e =>
      rw [runOp_struct_of_error required]
      rfl
    | ok fields =>
      rw [runOp_struct_eq_map required, ok_bind]
      apply Traced.written_append_of_calls (x := .call p shape fields)
      exact List.forall_mem_singleton.2 rfl
  | .forEach none source body => by
    cases listed : scope.items source (listName none) with
    | error e =>
      rw [traceOp, Traced.known_bind_of_error listed, runOp_forEach_of_error body listed]
      rfl
    | ok items =>
      rw [traceOp, Traced.known_bind_of_ok listed, runOp_forEach_none body listed]
      exact written_forEach fun v member => written_traceOps place _ body
  | .forEach (some tag) source body => by
    cases listed : scope.items source (listName (some tag)) with
    | error e =>
      rw [traceOp, Traced.known_bind_of_error listed, runOp_forEach_of_error body listed]
      rfl
    | ok items =>
      have inner := written_forEach fun v member =>
        written_traceOps .element (scope.withItem v (Scope.items_lt listed v member)) body
      rw [traceOp, Traced.known_bind_of_ok listed, runOp_forEach_some body listed, return_eq_map,
        ← inner]
      exact Traced.written_append_of_calls (fun a taken => (List.mem_filter.1 taken).2) _

end

/-- Steps that fail have done what their record says: here an element has got its number before it
was found to have no title. -/
example :
    traceOps (.empty "PutShelf") .element (.ofFields [("Number", .text "7")])
      [.attr "number" (.field "Number"), .element "Title" (.field "Title")] =
    ⟨[.setAttribute "number" "7"], .error (.missingValue "Title")⟩ := rfl

/-! ## No call is left out -/

/-- An action that comes to the same in two programs. -/
def Action.Alike (p q : Program) : Action → Prop
  | .append _ | .setAttribute _ _ => True
  | .call shape fields => runRoutine q .element shape fields = runRoutine p .element shape fields

namespace Traced

variable {α β : Type} {q : Program}

/-- Two programs go on alike as long as the actions that were taken come to the same in both. -/
theorem bind_congr {x y : Traced α} {f g : α → Traced β}
    (alike : ∀ a ∈ (x >>= f).actions, a.Alike p q)
    (first : (∀ a ∈ x.actions, a.Alike p q) → y = x)
    (rest : ∀ b, (∀ a ∈ (f b).actions, a.Alike p q) → g b = f b) : (y >>= g) = (x >>= f) := by
  obtain ⟨actions, outcome⟩ := x
  cases outcome with
  | error e =>
    rw [first alike]
    rfl
  | ok b =>
    obtain ⟨own, others⟩ := List.forall_mem_append.1 alike
    rw [first own]
    exact congrArg (fun z : Traced β => Traced.mk (actions ++ z.actions) z.outcome) (rest b others)

theorem call_congr {shape : String} {fields : List (String × Value)}
    (alike : ∀ a ∈ (call p shape fields).actions, a.Alike p q) :
    call q shape fields = call p shape fields :=
  congrArg (Traced.mk _) (alike _ (List.mem_singleton_self _))

theorem elsewhere_congr {x y : Traced Unit} (alike : ∀ a ∈ x.elsewhere.actions, a.Alike p q)
    (same : (∀ a ∈ x.actions, a.Alike p q) → y = x) : y.elsewhere = x.elsewhere := by
  rw [same fun a taken => ?_]
  cases a with
  | call shape fields => exact alike _ (List.mem_filter.2 ⟨taken, rfl⟩)
  | append n => trivial
  | setAttribute name value => trivial

theorem forEach_congr {items : List Value} {f g : ∀ v ∈ items, Traced Unit}
    (alike : ∀ a ∈ (forEach items f).actions, a.Alike p q)
    (each : ∀ v (member : v ∈ items), (∀ a ∈ (f v member).actions, a.Alike p q) →
      g v member = f v member) : forEach items g = forEach items f := by
  induction items with
  | nil => rfl
  | cons v rest ih =>
    rw [forEach] at alike
    rw [forEach, forEach]
    exact bind_congr alike (each v List.mem_cons_self) fun _ others =>
      ih others fun w member => each w (List.mem_cons_of_mem v member)

end Traced

section Congr

variable {q : Program}

mutual

/-- Steps depend on the program only by what comes of the calls in their record. -/
theorem traceOps_congr (place : Place) (scope : Scope) :
    ∀ ops : List Op, (∀ a ∈ (traceOps p place scope ops).actions, a.Alike p q) →
      traceOps q place scope ops = traceOps p place scope ops
  | [], _ => by rw [traceOps, traceOps]
  | op :: rest, alike => by
    rw [traceOps] at alike
    rw [traceOps, traceOps]
    exact Traced.bind_congr alike (traceOp_congr place scope op) fun _ =>
      traceOps_congr place scope rest

theorem traceOp_congr (place : Place) (scope : Scope) :
    ∀ op : Op, (∀ a ∈ (traceOp p place scope op).actions, a.Alike p q) →
      traceOp q place scope op = traceOp p place scope op
  | .ifPresent field body, alike => by
    cases found : scope.fields.lookup field with
    | none => rw [traceOp, traceOp, Traced.ifSome_of_none found, Traced.ifSome_of_none found]
    | some v =>
      rw [traceOp, Traced.ifSome_of_some found] at alike
      rw [traceOp, traceOp, Traced.ifSome_of_some found, Traced.ifSome_of_some found]
      exact traceOps_congr place _ body alike
  | .element tag source, _ => by rw [traceOp, traceOp]
  | .attr name source, _ => by rw [traceOp, traceOp]
  | .boolean tag source, _ => by rw [traceOp, traceOp]
  | .struct tag declared shape source, alike => by
    rw [traceOp] at alike
    rw [traceOp, traceOp]
    refine Traced.bind_congr alike (fun _ => rfl) fun fields calls => ?_
    exact Traced.bind_congr calls Traced.call_congr fun _ _ => rfl
  | .forEach none source body, alike => by
    rw [traceOp] at alike
    rw [traceOp, traceOp]
    refine Traced.bind_congr alike (fun _ => rfl) fun items calls => ?_
    exact Traced.forEach_congr calls fun v member => traceOps_congr place _ body
  | .forEach (some tag) source body, alike => by
    rw [traceOp] at alike
    rw [traceOp, traceOp]
    refine Traced.bind_congr alike (fun _ => rfl) fun items calls => ?_
    refine Traced.bind_congr calls (fun inner => ?_) fun _ _ => rfl
    exact Traced.elsewhere_congr inner fun all =>
      Traced.forEach_congr all fun v member => traceOps_congr .element _ body

end

end Congr

end WireBody.Run
