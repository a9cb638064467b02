import WireBody.Proofs.Request.Parts
import WireBody.Proofs.Run.Steps

/-!
# Runs and the calls that they make

Nothing stops the routines of a program from calling each other in a circle, and a run ends all the
same: what a routine is called for is a part of the structure that its caller writes.  To say this,
the way from a request to its body is described without regard to whether it ends, by rules that
also list the calls of routines.  Every request has such a way, of finitely many rules, and no way
leads elsewhere than the run.

Main definitions: `Runs` has the rules, `Call` is an entry of the list.  Main statement:
`run_terminates`.
-/

set_option autoImplicit false

namespace WireBody.Xml

/-- A node stands among some nodes, or anywhere inside them. -/
inductive Node.Occurs (n : Node) : Forest → Prop
  | here {forest : Forest} : n ∈ forest → Node.Occurs n forest
  | inside {forest children : Forest} {name : String} {attributes : List (String × String)} :
      .element name attributes children ∈ forest → Node.Occurs n children → Node.Occurs n forest

theorem Node.Occurs.mono {n : Node} {forest larger : Forest} (occurs : n.Occurs forest)
    (subset : forest ⊆ larger) : n.Occurs larger := by
  cases occurs with
  | here member => exact .here (subset member)
  | inside member occurs => exact .inside (subset member) occurs

/-- What stands inside an element stands where the element does. -/
theorem Node.Occurs.within {n : Node} {forest children : Forest} {name : String}
    {attributes : List (String × String)} (inner : n.Occurs children)
    (outer : (Node.element name attributes children).Occurs forest) : n.Occurs forest := by
  induction outer with
  | here member => exact .inside member inner
  | inside member _ ih => exact .inside member ih

end WireBody.Xml

namespace WireBody.Run

open WireBody.Program
open WireBody.Request
open WireBody.Xml

/-- A call of a routine. -/
structure Call where
  /-- The structure whose routine is called. -/
  shape : String
  /-- The fields that the caller writes, if a routine calls. -/
  caller : Option (List (String × Value))
  /-- The fields that the routine is called for. -/
  fields : List (String × Value)
  outcome : Except RunError Content

/-! ## Rules -/

mutual

/-- Steps are taken one after the other until one fails. -/
inductive TakesOps (p : Program) :
    Place → Scope → List Op → Except RunError Content → List Call → Prop
  | nil {place : Place} {scope : Scope} : TakesOps p place scope [] (.ok .empty) []
  | cons {place : Place} {scope : Scope} {op : Op} {rest : List Op} {first : Content}
      {r : Except RunError Content} {calls others : List Call} :
      TakesOp p place scope op (.ok first) calls → TakesOps p place scope rest r others →
      TakesOps p place scope (op :: rest) (r.map (first ++ ·)) (calls ++ others)
  | stop {place : Place} {scope : Scope} {op : Op} {rest : List Op} {e : RunError}
      {calls : List Call} :
      TakesOp p place scope op (.error e) calls →
      TakesOps p place scope (op :: rest) (.error e) calls

/-- What each step does. -/
inductive TakesOp (p : Program) :
    Place → Scope → Op → Except RunError Content → List Call → Prop
  | absent {place : Place} {scope : Scope} {field : String} {body : List Op} :
      scope.fields.lookup field = none →
      TakesOp p place scope (.ifPresent field body) (.ok .empty) []
  | present {place : Place} {scope : Scope} {field : String} {body : List Op} {v : Value}
      {r : Except RunError Content} {calls : List Call}
      (found : scope.fields.lookup field = some v) :
      TakesOps p place (scope.withPresent v (sizeOf_lt_of_lookup found)) body r calls →
      TakesOp p place scope (.ifPresent field body) r calls
  | element {place : Place} {scope : Scope} {tag : String} {source : Source} :
      TakesOp p place scope (.element tag source)
        (do
          let v ← scope.require source tag
          let text ← textOf tag v
          return .child (.ofText tag text)) []
  | attr {place : Place} {scope : Scope} {name : String} {source : Source} :
      TakesOp p place scope (.attr name source)
        (do
          let v ← scope.require source name
          let text ← textOf name v
          place.setAttribute name text) []
  | boolean {place : Place} {scope : Scope} {tag : String} {source : Source} :
      TakesOp p place scope (.boolean tag source)
        (do
          let v ← scope.require source tag
          let text ← booleanOf tag v
          return .child (.ofText tag text)) []
  | notStruct {place : Place} {scope : Scope} {tag shape : String}
      {declared : Option NamespaceDeclaration} {source : Source} {e : RunError} :
      scope.requireFields source tag = .error e →
      TakesOp p place scope (.struct tag declared shape source) (.error e) []
  | struct {place : Place} {scope : Scope} {tag shape : String}
      {declared : Option NamespaceDeclaration} {source : Source} {fields : List (String × Value)}
      {r : Except RunError Content} {calls : List Call} :
      scope.requireFields source tag = .ok fields →
      TakesRoutine p .element shape fields r calls →
      TakesOp p place scope (.struct tag declared shape source)
        (r.map fun content => .child (elementOf tag declared content))
        (⟨shape, some scope.fields, fields, r⟩ :: calls)
  | notList {place : Place} {scope : Scope} {wrapper : Option String} {source : Source}
      {body : List Op} {e : RunError} :
      scope.items source (listName wrapper) = .error e →
      TakesOp p place scope (.forEach wrapper source body) (.error e) []
  | wrapped {place : Place} {scope : Scope} {tag : String} {source : Source} {body : List Op}
      {items : List Value} {r : Except RunError Content} {calls : List Call}
      (listed : scope.items source (listName (some tag)) = .ok items) :
      TakesItems p .element scope body items (Scope.items_lt listed) r calls →
      TakesOp p place scope (.forEach (some tag) source body)
        (r.map fun content => .child (elementOf tag none content)) calls
  | flattened {place : Place} {scope : Scope} {source : Source} {body : List Op}
      {items : List Value} {r : Except RunError Content} {calls : List Call}
      (listed : scope.items source (listName none) = .ok items) :
      TakesItems p place scope body items (Scope.items_lt listed) r calls →
      TakesOp p place scope (.forEach none source body) r calls

/-- The steps of a routine see the fields that it is called for. -/
inductive TakesRoutine (p : Program) :
    Place → String → List (String × Value) → Except RunError Content → List Call → Prop
  | missing {place : Place} {shape : String} {fields : List (String × Value)} :
      p.routine? shape = none →
      TakesRoutine p place shape fields (.error (.missingRoutine shape)) []
  | found {place : Place} {shape : String} {fields : List (String × Value)} {routine : Routine}
      {r : Except RunError Content} {calls : List Call} :
      p.routine? shape = some routine →
      TakesOps p place (.ofFields fields) routine.ops r calls →
      TakesRoutine p place shape fields r calls

/-- Steps are taken for one item after the other until one fails. -/
inductive TakesItems (p : Program) :
    Place → (scope : Scope) → List Op → (items : List Value) →
    (∀ v ∈ items, sizeOf v < sizeOf scope.fields) → Except RunError Content → List Call → Prop
  | nil {place : Place} {scope : Scope} {body : List Op}
      {below : ∀ v ∈ ([] : List Value), sizeOf v < sizeOf scope.fields} :
      TakesItems p place scope body [] below (.ok .empty) []
  | cons {place : Place} {scope : Scope} {body : List Op} {v : Value} {rest : List Value}
      {below : ∀ w ∈ v :: rest, sizeOf w < sizeOf scope.fields} {first : Content}
      {r : Except RunError Content} {calls others : List Call} :
      TakesOps p place (scope.withItem v (below v List.mem_cons_self)) body (.ok first) calls →
      TakesItems p place scope body rest (fun w member => below w (List.mem_cons_of_mem v member))
        r others →
      TakesItems p place scope body (v :: rest) below (r.map (first ++ ·)) (calls ++ others)
  | stop {place : Place} {scope : Scope} {body : List Op} {v : Value} {rest : List Value}
      {below : ∀ w ∈ v :: rest, sizeOf w < sizeOf scope.fields} {e : RunError}
      {calls : List Call} :
      TakesOps p place (scope.withItem v (below v List.mem_cons_self)) body (.error e) calls →
      TakesItems p place scope body (v :: rest) below (.error e) calls

end

/-- The ways from a request to its body, or to the reason why there is none. -/
inductive Runs (p : Program) (request : Option Value) :
    Except RunError Body → List Call → Prop
  | badRequest {e : RunError} :
      requestFields p.operation request = .error e → Runs p request (.error e) []
  | empty {fields : List (String × Value)} :
      requestFields p.operation request = .ok fields → p.plan = .empty →
      Runs p request (.ok (.document [])) []
  | raw {fields : List (String × Value)} {field : String} :
      requestFields p.operation request = .ok fields → p.plan = .raw field →
      Runs p request ((rawBytes field (fields.lookup field)).map .raw) []
  | badPayload {fields : List (String × Value)} {root : String} {payload : Option String}
      {e : RunError} :
      requestFields p.operation request = .ok fields → p.plan = .document root payload →
      rootFields payload fields = .error e → Runs p request (.error e) []
  | noPayload {fields : List (String × Value)} {root : String} {payload : Option String} :
      requestFields p.operation request = .ok fields → p.plan = .document root payload →
      rootFields payload fields = .ok none → Runs p request (.ok (.document [])) []
  | document {fields top : List (String × Value)} {root : String} {payload : Option String}
      {r : Except RunError Content} {calls : List Call} :
      requestFields p.operation request = .ok fields → p.plan = .document root payload →
      rootFields payload fields = .ok (some top) → TakesRoutine p .document root top r calls →
      Runs p request (r.map fun content => .document content.children)
        (⟨root, none, top, r⟩ :: calls)

variable {p : Program}

/-! ## Every request has a way -/

theorem exists_takesOps (place : Place) (scope : Scope) (ops : List Op) :
    ∃ calls, TakesOps p place scope ops (runOps p place scope ops) calls := by
  refine (runOps.mutual_induct p
    (fun place scope ops => ∃ calls, TakesOps p place scope ops (runOps p place scope ops) calls)
    (fun place scope op => ∃ calls, TakesOp p place scope op (runOp p place scope op) calls)
    (fun place scope body items below => ∃ calls,
      TakesItems p place scope body items below (runItems p place scope body items below) calls)
    ?nil ?cons ?absent ?present ?element ?attr ?boolean ?notStruct ?noRoutine ?struct
    ?notList ?wrapped ?flattened ?noItems ?items).1 place scope ops
  case nil =>
    intro place scope
    rw [runOps_nil]
    exact ⟨[], .nil⟩
  case cons =>
    rintro place scope op rest ⟨calls, step⟩ ⟨others, steps⟩
    rw [runOps_cons]
    cases first : runOp p place scope op with
    | error e =>
      rw [first] at step
      exact ⟨calls, .stop step⟩
    | ok c =>
      rw [first] at step
      rw [ok_bind, return_eq_map]
      exact ⟨calls ++ others, .cons step steps⟩
  case absent =>
    intro place scope field body absent
    rw [runOp_ifPresent_of_none body absent]
    exact ⟨[], .absent absent⟩
  case present =>
    rintro place scope field body v found ⟨calls, steps⟩
    rw [runOp_ifPresent_of_some body found]
    exact ⟨calls, .present found steps⟩
  case element =>
    intro place scope tag source
    rw [runOp_element]
    exact ⟨[], .element⟩
  case attr =>
    intro place scope name source
    rw [runOp_attr]
    exact ⟨[], .attr⟩
  case boolean =>
    intro place scope tag source
    rw [runOp_boolean]
    exact ⟨[], .boolean⟩
  case notStruct =>
    intro place scope tag declared shape source e failed
    rw [runOp_struct_of_error failed]
    exact ⟨[], .notStruct failed⟩
  case noRoutine =>
    intro place scope tag declared shape source fields required _ missing
    rw [runOp_struct_of_missing required missing]
    exact ⟨_, .struct required (.missing missing)⟩
  case struct =>
    rintro place scope tag declared shape source fields required _ r own ⟨calls, steps⟩
    rw [runOp_struct required own, return_eq_map]
    exact ⟨_, .struct required (.found own steps)⟩
  case notList =>
    intro place scope wrapper source body e failed
    rw [runOp_forEach_of_error body failed]
    exact ⟨[], .notList failed⟩
  case wrapped =>
    rintro place scope source body items tag listed ⟨calls, steps⟩
    rw [runOp_forEach_some body listed, return_eq_map]
    exact ⟨calls, .wrapped listed steps⟩
  case flattened =>
    rintro place scope source body items listed ⟨calls, steps⟩
    rw [runOp_forEach_none body listed]
    exact ⟨calls, .flattened listed steps⟩
  case noItems =>
    intro place scope body below _
    rw [runItems_nil]
    exact ⟨[], .nil⟩
  case items =>
    rintro place scope body v rest below _ ⟨calls, steps⟩ ⟨others, items⟩
    rw [runItems_cons]
    cases first : runOps p place (scope.withItem v (below v List.mem_cons_self)) body with
    | error e =>
      rw [first] at steps
      exact ⟨calls, .stop steps⟩
    | ok c =>
      rw [first] at steps
      rw [ok_bind, return_eq_map]
      exact ⟨calls ++ others, .cons steps items⟩

theorem exists_takesRoutine (place : Place) (shape : String) (fields : List (String × Value)) :
    ∃ calls, TakesRoutine p place shape fields (runRoutine p place shape fields) calls := by
  unfold runRoutine
  split
  · rename_i missing
    exact ⟨[], .missing missing⟩
  · rename_i routine own
    obtain ⟨calls, steps⟩ := exists_takesOps (p := p) place (.ofFields fields) routine.ops
    exact ⟨calls, .found own steps⟩

theorem exists_runs (p : Program) (request : Option Value) :
    ∃ calls, Runs p request (p.run request) calls := by
  unfold Program.run
  cases given : requestFields p.operation request with
  | error e => exact ⟨[], .badRequest given⟩
  | ok fields =>
    rw [ok_bind]
    cases plan : p.plan with
    | empty => exact ⟨[], .empty given plan⟩
    | raw field =>
      simp only [return_eq_map]
      exact ⟨[], .raw given plan⟩
    | document root payload =>
      simp only
      cases top : rootFields payload fields with
      | error e => exact ⟨[], .badPayload given plan top⟩
      | ok found =>
        rw [ok_bind]
        cases found with
        | none => exact ⟨[], .noPayload given plan top⟩
        | some fields =>
          obtain ⟨calls, routine⟩ := exists_takesRoutine (p := p) .document root fields
          simp only [return_eq_map]
          exact ⟨_, .document given plan top routine⟩

/-- If the root of a document consists of one structure, then its routine calls that of this
structure. -/
theorem exists_call_of_root {p : Program} {root tag shape : String}
    {declared : Option NamespaceDeclaration} {top fields : List (String × Value)}
    {content : Content} (plan : p.plan = .document root none)
    (own : p.routine? root = some ⟨root, [.struct tag declared shape (.field tag)]⟩)
    (found : top.lookup tag = some (.struct fields))
    (written : runRoutine p .element shape fields = .ok content) :
    ∃ calls, Runs p (some (.struct top)) (.ok (.document [elementOf tag declared content])) calls ∧
      ⟨shape, some top, fields, .ok content⟩ ∈ calls := by
  obtain ⟨calls, routine⟩ := exists_takesRoutine (p := p) .element shape fields
  rw [written] at routine
  have resolved : (Scope.ofFields top).resolve (.field tag) = some (.struct fields) := found
  have required := requireFields_of_struct resolved tag
  have step := @TakesOp.struct p .document _ tag shape declared _ _ _ _ required routine
  have steps := @TakesOps.cons p _ _ _ [] _ _ _ [] step .nil
  have runs := @Runs.document p (some (.struct top)) top top root none _ _ rfl plan rfl
    (.found own steps)
  exact ⟨_, runs, .tail _ (.head _)⟩

/-! ## Parts -/

/-- All that steps can read is within the structure that is written. -/
def Scope.Inside (scope : Scope) : Prop :=
  ∀ {source : Source} {v : Value}, scope.resolve source = some v → v.Within (.struct scope.fields)

theorem inside_ofFields (fields : List (String × Value)) : (Scope.ofFields fields).Inside := by
  intro source v found
  cases source with
  | field name => exact .single (.field found)
  | present => cases found
  | item => cases found

section Inside

variable {scope : Scope} {v : Value} {below : sizeOf v < sizeOf scope.fields}

theorem Scope.Inside.withPresent (inside : scope.Inside) (within : v.Within (.struct scope.fields)) :
    (scope.withPresent v below).Inside := by
  intro source w found
  cases source with
  | field name => exact @inside (.field name) w found
  | present =>
    cases found
    exact within
  | item => exact @inside .item w found

theorem Scope.Inside.withItem (inside : scope.Inside) (within : v.Within (.struct scope.fields)) :
    (scope.withItem v below).Inside := by
  intro source w found
  cases source with
  | field name => exact @inside (.field name) w found
  | present => exact @inside .present w found
  | item =>
    cases found
    exact within

theorem Scope.Inside.items (inside : scope.Inside) {source : Source} {name : String}
    {items : List Value} (listed : scope.items source name = .ok items) :
    ∀ v ∈ items, v.Within (.struct scope.fields) := by
  intro v member
  unfold Scope.items at listed
  split at listed
  · cases listed
    cases member
  · rename_i items' found
    cases listed
    exact .head (.item member) (inside found)
  · cases listed

theorem Scope.Inside.requireFields (inside : scope.Inside) {source : Source} {name : String}
    {fields : List (String × Value)} (required : scope.requireFields source name = .ok fields) :
    (Value.struct fields).Within (.struct scope.fields) := by
  unfold Scope.requireFields at required
  split at required
  · cases required
  · rename_i v found
    split at required
    · rename_i fields' isStruct
      cases required
      rw [← Value.fields?_eq_some_iff.1 isStruct]
      exact inside (Scope.require_eq_ok_iff.1 found)
    · cases required

end Inside

/-! ## A way leads to the run -/

/-- A call by a routine: it is for a part of what the caller writes, and it gives what the routine
writes for that part. -/
structure Call.Nested (p : Program) (c : Call) : Prop where
  within : ∃ caller, c.caller = some caller ∧ (Value.struct c.fields).Within (.struct caller)
  outcome : c.outcome = runRoutine p .element c.shape c.fields

/-- Calls by routines.  If the outcome is a success, then all of them succeed, and what they write
stands in an element of what is written. -/
structure Orderly (p : Program) (r : Except RunError Content) (calls : List Call) : Prop where
  nested : ∀ c ∈ calls, c.Nested p
  ok : ∀ {whole : Content}, r = .ok whole → ∀ c ∈ calls, ∃ content tag declared,
    c.outcome = .ok content ∧ (elementOf tag declared content).Occurs whole.children

namespace Orderly

variable {r : Except RunError Content} {calls others : List Call}

theorem nil : Orderly p r [] := ⟨nofun, fun _ => nofun⟩

theorem append {first : Content} (orderly : Orderly p (.ok first) calls)
    (rest : Orderly p r others) : Orderly p (r.map (first ++ ·)) (calls ++ others) := by
  refine ⟨List.forall_mem_append.2 ⟨orderly.nested, rest.nested⟩, fun succeeded => ?_⟩
  obtain ⟨last, rested, rfl⟩ := map_eq_ok_iff.1 succeeded
  refine List.forall_mem_append.2 ⟨fun c member => ?_, fun c member => ?_⟩
  · obtain ⟨content, tag, declared, outcome, occurs⟩ := orderly.ok rfl c member
    exact ⟨content, tag, declared, outcome, occurs.mono (List.subset_append_left _ _)⟩
  · obtain ⟨content, tag, declared, outcome, occurs⟩ := rest.ok rested c member
    exact ⟨content, tag, declared, outcome, occurs.mono (List.subset_append_right _ _)⟩

/-- What is written may stand in an element of its own. -/
theorem child (orderly : Orderly p r calls) (tag : String)
    (declared : Option NamespaceDeclaration) :
    Orderly p (r.map fun content => .child (elementOf tag declared content)) calls := by
  refine ⟨orderly.nested, fun succeeded c member => ?_⟩
  obtain ⟨inner, written, rfl⟩ := map_eq_ok_iff.1 succeeded
  obtain ⟨content, tag', declared', outcome, occurs⟩ := orderly.ok written c member
  exact ⟨content, tag', declared', outcome, .inside (List.mem_singleton_self _) occurs⟩

/-- A call comes before those of its routine. -/
theorem call {shape : String} {caller fields : List (String × Value)}
    (within : (Value.struct fields).Within (.struct caller))
    (written : runRoutine p .element shape fields = r) (orderly : Orderly p r calls) (tag : String)
    (declared : Option NamespaceDeclaration) :
    Orderly p (r.map fun content => .child (elementOf tag declared content))
      (⟨shape, some caller, fields, r⟩ :: calls) := by
  have below := orderly.child tag declared
  refine ⟨List.forall_mem_cons.2 ⟨⟨⟨caller, rfl, within⟩, written.symm⟩, below.nested⟩,
    fun succeeded => List.forall_mem_cons.2 ⟨?_, below.ok succeeded⟩⟩
  obtain ⟨inner, own, rfl⟩ := map_eq_ok_iff.1 succeeded
  exact ⟨inner, tag, declared, own, .here (List.mem_singleton_self _)⟩

end Orderly

mutual

theorem takesOps_sound {place : Place} {scope : Scope} {ops : List Op}
    {r : Except RunError Content} {calls : List Call} (inside : scope.Inside) :
    TakesOps p place scope ops r calls → runOps p place scope ops = r ∧ Orderly p r calls
  | .nil => ⟨runOps_nil, .nil⟩
  | .cons step steps => by
    obtain ⟨first, orderly⟩ := takesOp_sound inside step
    obtain ⟨others, rest⟩ := takesOps_sound inside steps
    rw [runOps_cons, first, others, ok_bind, return_eq_map]
    exact ⟨rfl, orderly.append rest⟩
  | .stop step => by
    obtain ⟨first, orderly⟩ := takesOp_sound inside step
    rw [runOps_cons, first]
    exact ⟨rfl, orderly⟩

theorem takesOp_sound {place : Place} {scope : Scope} {op : Op} {r : Except RunError Content}
    {calls : List Call} (inside : scope.Inside) :
    TakesOp p place scope op r calls → runOp p place scope op = r ∧ Orderly p r calls
  | .absent absent => ⟨runOp_ifPresent_of_none _ absent, .nil⟩
  | .present found steps => by
    rw [runOp_ifPresent_of_some _ found]
    exact takesOps_sound (inside.withPresent (.single (.field found))) steps
  | .element => ⟨runOp_element _ _, .nil⟩
  | .attr => ⟨runOp_attr _ _, .nil⟩
  | .boolean => ⟨runOp_boolean _ _, .nil⟩
  | .notStruct failed => ⟨runOp_struct_of_error failed, .nil⟩
  | .struct required routine => by
    obtain ⟨written, orderly⟩ := takesRoutine_sound routine
    rw [runOp_struct_eq_map required, written]
    exact ⟨rfl, orderly.call (inside.requireFields required) written _ _⟩
  | .notList failed => ⟨runOp_forEach_of_error _ failed, .nil⟩
  | .wrapped listed steps => by
    obtain ⟨written, orderly⟩ := takesItems_sound inside (inside.items listed) steps
    rw [runOp_forEach_some _ listed, written, return_eq_map]
    exact ⟨rfl, orderly.child _ _⟩
  | .flattened listed steps => by
    rw [runOp_forEach_none _ listed]
    exact takesItems_sound inside (inside.items listed) steps

theorem takesRoutine_sound {place : Place} {shape : String} {fields : List (String × Value)}
    {r : Except RunError Content} {calls : List Call} :
    TakesRoutine p place shape fields r calls →
      runRoutine p place shape fields = r ∧ Orderly p r calls
  | .missing missing => ⟨by simp only [runRoutine, missing], .nil⟩
  | .found own steps => by
    simp only [runRoutine, own]
    exact takesOps_sound (inside_ofFields fields) steps

theorem takesItems_sound {place : Place} {scope : Scope} {body : List Op} {items : List Value}
    {below : ∀ v ∈ items, sizeOf v < sizeOf scope.fields} {r : Except RunError Content}
    {calls : List Call} (inside : scope.Inside)
    (within : ∀ v ∈ items, v.Within (.struct scope.fields)) :
    TakesItems p place scope body items below r calls →
      runItems p place scope body items below = r ∧ Orderly p r calls
  | .nil => ⟨runItems_nil _ _, .nil⟩
  | .cons steps items => by
    obtain ⟨own, others⟩ := List.forall_mem_cons.1 within
    obtain ⟨first, orderly⟩ := takesOps_sound (inside.withItem own) steps
    obtain ⟨written, rest⟩ := takesItems_sound inside others items
    rw [runItems_cons, first, written, ok_bind, return_eq_map]
    exact ⟨rfl, orderly.append rest⟩
  | .stop steps => by
    obtain ⟨own, -⟩ := List.forall_mem_cons.1 within
    obtain ⟨first, orderly⟩ := takesOps_sound (inside.withItem own) steps
    rw [runItems_cons, first]
    exact ⟨rfl, orderly⟩

end

/-- A run calls no routine, or the one of its root, which makes all other calls. -/
theorem run_of_runs {request : Option Value} {r : Except RunError Body} {calls : List Call}
    (runs : Runs p request r calls) :
    p.run request = r ∧
      (calls = [] ∨ ∃ root payload top written others, calls = ⟨root, none, top, written⟩ :: others ∧
        p.plan = .document root payload ∧ runRoutine p .document root top = written ∧
        r = written.map (fun content => .document content.children) ∧ Orderly p written others) := by
  unfold Program.run
  cases runs with
  | badRequest failed => simp [failed]
  | empty given plan => simp [given, plan]
  | raw given plan =>
    refine ⟨?_, .inl rfl⟩
    simp only [given, plan, ok_bind]
    exact return_eq_map
  | badPayload given plan failed => simp [given, plan, failed]
  | noPayload given plan absent => simp [given, plan, absent]
  | document given plan top routine =>
    obtain ⟨written, orderly⟩ := takesRoutine_sound routine
    refine ⟨?_, .inr ⟨_, _, _, _, _, rfl, plan, written, rfl, orderly⟩⟩
    simp only [given, plan, top, written, ok_bind, return_eq_map]

/-- Every program comes to an end on every request, however its routines call each other: there is
a way to the body that is sent or to the reason why none is.  No way leads elsewhere, and on each
of them every call by a routine is for a structure strictly within the one that this routine
writes. -/
theorem run_terminates (p : Program) (declared : Bool) (request : Option Value) :
    (∃ r calls, Runs p request r calls ∧ p.serialize declared request = r.map (Body.bytes declared)) ∧
    ∀ r calls, Runs p request r calls → r = p.run request ∧
      ∀ c ∈ calls, ∀ caller, c.caller = some caller →
        (Value.struct c.fields).Within (.struct caller) := by
  constructor
  · obtain ⟨calls, runs⟩ := exists_runs p request
    exact ⟨p.run request, calls, runs, rfl⟩
  · intro r calls runs
    obtain ⟨ran, rfl | ⟨root, payload, top, written, others, rfl, -, -, -, orderly⟩⟩ :=
      run_of_runs runs
    · exact ⟨ran.symm, nofun⟩
    · refine ⟨ran.symm, List.forall_mem_cons.2 ⟨nofun, fun c member caller called => ?_⟩⟩
      obtain ⟨caller', called', within⟩ := (orderly.nested c member).within
      cases called.symm.trans called'
      exact within

/-- A routine that calls itself for whatever it finds ends where the request does. -/
example :
    (⟨"Nest", .document "Nest" none,
      .ofList [("Nest", ⟨"Nest", [.ifPresent "In" [.struct "In" none "Nest" .present]]⟩)]⟩ :
      Program).run (some (.struct [("In", .struct [("In", .struct [])])])) =
    .ok (.document [.element "In" [] [.element "In" [] []]]) := by
  cbv

end WireBody.Run
