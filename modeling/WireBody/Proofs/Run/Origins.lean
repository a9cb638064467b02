import Mathlib
import WireBody.Proofs.Run.Pieces
import WireBody.Proofs.Run.Traces

/-!
# What steps show of what they do

Without taking them, steps can be asked whether they may set an attribute of their place, and which
structures' routines they call.  Both answers look at the steps alone, at all of them and whatever
the values are, so they promise that nothing else happens in any run, a failing one included.  A run
that fails for no value therefore fails where the steps show that it may: at an attribute of the
document, or at a routine that is called and not there.

Main definitions: `Recorded` is what a record tells of a run, `MayCall` what routines show of their
calls, and `Origin` where failures come from.

Main statement: `analyses_sound`.
-/

set_option autoImplicit false

namespace WireBody.Run

open WireBody.Program
open WireBody.Request
open WireBody.Xml

variable {p : Program} {place : Place} {scope : Scope}

/-! ## Errors of values -/

/-- An error of a value: it is absent, of the wrong kind, or no text. -/
def RunError.OfValue : RunError → Prop
  | .missingValue _ | .typeMismatch _ _ _ | .invalidUtf8 _ => True
  | .missingRoutine _ | .attributeOnDocument _ => False

/-- Something that fails for a value, if at all. -/
def FailsOfValue {α : Type} (x : Except RunError α) : Prop := ∀ {e}, x = .error e → e.OfValue

theorem failsOfValue_require (source : Source) (name : String) :
    FailsOfValue (scope.require source name) := by
  intro e failed
  unfold Scope.require at failed
  split at failed <;> cases failed
  trivial

theorem failsOfValue_requireFields (source : Source) (name : String) :
    FailsOfValue (scope.requireFields source name) := by
  intro e failed
  unfold Scope.requireFields at failed
  split at failed
  · rename_i e' missing
    cases failed
    exact failsOfValue_require source name missing
  · split at failed <;> cases failed
    trivial

theorem failsOfValue_items (source : Source) (name : String) :
    FailsOfValue (scope.items source name) := by
  intro e failed
  unfold Scope.items at failed
  split at failed <;> cases failed
  trivial

theorem failsOfValue_textOf (name : String) (v : Value) : FailsOfValue (textOf name v) := by
  intro e failed
  rcases textOf_eq_error_iff.1 failed with ⟨bytes, -, -, rfl⟩ | ⟨-, -, rfl⟩
  · trivial
  · trivial

theorem failsOfValue_booleanOf (name : String) (v : Value) : FailsOfValue (booleanOf name v) := by
  intro e failed
  obtain ⟨-, rfl⟩ := booleanOf_eq_error_iff.1 failed
  trivial

theorem failsOfValue_requestFields (operation : String) (request : Option Value) :
    FailsOfValue (requestFields operation request) := by
  intro e failed
  unfold requestFields at failed
  split at failed
  · cases failed
  · split at failed <;> cases failed
    trivial

theorem failsOfValue_rootFields (payload : Option String) (fields : List (String × Value)) :
    FailsOfValue (rootFields payload fields) := by
  intro e failed
  unfold rootFields at failed
  split at failed
  · cases failed
  · split at failed
    · cases failed
    · split at failed <;> cases failed
      trivial

/-! ## Why steps fail -/

/-- Why some steps fail at a place, by the actions that they took. -/
inductive Reason (p : Program) (place : Place) (actions : List Action) : RunError → Prop
  | value {e : RunError} : e.OfValue → Reason p place actions e
  /-- They set an attribute, and the place is the document. -/
  | onDocument {name value : String} :
      .setAttribute name value ∈ actions → place = .document →
      Reason p place actions (.attributeOnDocument name)
  /-- A routine that they called failed. -/
  | call {shape : String} {fields : List (String × Value)} {e : RunError} :
      .call shape fields ∈ actions → runRoutine p .element shape fields = .error e →
      Reason p place actions e

theorem Reason.mono {actions more : List Action} {e : RunError} (reason : Reason p place actions e)
    (subset : actions ⊆ more) : Reason p place more e := by
  cases reason with
  | value ofValue => exact .value ofValue
  | onDocument set isDocument => exact .onDocument (subset set) isDocument
  | call called failed => exact .call (subset called) failed

/-- All actions are of some kind, and a failure has its reason among them. -/
structure Accounted {α : Type} (p : Program) (place : Place) (May : Action → Prop) (x : Traced α) :
    Prop where
  may : ∀ a ∈ x.actions, May a
  reason : ∀ {e}, x.outcome = .error e → Reason p place x.actions e

namespace Accounted

variable {α β : Type} {May May' : Action → Prop}

theorem mono {x : Traced α} (accounted : Accounted p place May x) (wider : ∀ a, May a → May' a) :
    Accounted p place May' x :=
  ⟨fun a taken => wider a (accounted.may a taken), accounted.reason⟩

theorem quiet {x : Except RunError α} (ofValue : FailsOfValue x) :
    Accounted p place May (.quiet x) :=
  ⟨nofun, fun failed => .value (ofValue failed)⟩

theorem known {x : Except RunError α} (ofValue : FailsOfValue x) :
    Accounted p place May (.known x) := by
  cases x with
  | ok a => exact quiet nofun
  | error e =>
    refine quiet fun same => ?_
    cases same
    exact ofValue rfl

theorem ifSome {o : Option α} {f : {a // o = some a} → Traced Unit}
    (each : ∀ a, Accounted p place May (f a)) : Accounted p place May (.ifSome o f) := by
  cases o with
  | none => exact quiet nofun
  | some a => exact each ⟨a, rfl⟩

theorem bind {x : Traced α} {f : α → Traced β} (first : Accounted p place May x)
    (rest : ∀ a, x.outcome = .ok a → Accounted p place May (f a)) :
    Accounted p place May (x >>= f) := by
  obtain ⟨actions, outcome⟩ := x
  cases outcome with
  | error e =>
    refine ⟨first.may, fun failed => ?_⟩
    cases failed
    exact first.reason rfl
  | ok a =>
    have later := rest a rfl
    exact ⟨List.forall_mem_append.2 ⟨first.may, later.may⟩,
      fun failed => (later.reason failed).mono (List.subset_append_right _ _)⟩

theorem append {n : Node} (may : May (.append n)) : Accounted p place May (.append n) :=
  ⟨List.forall_mem_singleton.2 may, nofun⟩

theorem setAttribute {name value : String} (may : May (.setAttribute name value)) :
    Accounted p place May (.setAttribute place name value) := by
  refine ⟨List.forall_mem_singleton.2 may, fun failed => ?_⟩
  cases place with
  | element => cases failed
  | document =>
    cases failed
    exact .onDocument (List.mem_singleton_self _) rfl

theorem call {shape : String} {fields : List (String × Value)} (may : May (.call shape fields)) :
    Accounted p place May (.call p shape fields) :=
  ⟨List.forall_mem_singleton.2 may, fun failed => .call (List.mem_singleton_self _) failed⟩

/-- No attribute of an element is a reason to fail. -/
theorem elsewhere {x : Traced Unit} (accounted : Accounted p .element May x)
    (calls : ∀ shape fields, May (.call shape fields) → May' (.call shape fields)) :
    Accounted p place May' x.elsewhere := by
  constructor
  · intro a taken
    obtain ⟨taken, isCall⟩ := List.mem_filter.1 taken
    obtain ⟨shape, fields, rfl⟩ := Action.exists_of_isCall isCall
    exact calls shape fields (accounted.may _ taken)
  · intro e failed
    cases accounted.reason (map_eq_error_iff.1 failed) with
    | value ofValue => exact .value ofValue
    | onDocument _ isDocument => cases isDocument
    | call called failed => exact .call (List.mem_filter.2 ⟨called, rfl⟩) failed

theorem forEach {items : List Value} {f : ∀ v ∈ items, Traced Unit}
    (each : ∀ v (member : v ∈ items), Accounted p place May (f v member)) :
    Accounted p place May (.forEach items f) := by
  induction items with
  | nil => exact quiet nofun
  | cons v rest ih =>
    rw [Traced.forEach]
    exact (each v List.mem_cons_self).bind fun _ _ =>
      ih fun w member => each w (List.mem_cons_of_mem v member)

end Accounted

/-! ## What steps show -/

/-- What steps may do while a structure of these fields is written: set an attribute only if they
show that, and call only the routines that they show, each of them for a smaller structure. -/
def Shown (written : List (String × Value)) (setsAttribute : Bool) (references : List String) :
    Action → Prop
  | .append _ => True
  | .setAttribute _ _ => setsAttribute = true
  | .call shape fields => shape ∈ references ∧ sizeOf fields < sizeOf written

theorem Shown.mono {written : List (String × Value)} {sets sets' : Bool}
    {references references' : List String} (attributes : sets = true → sets' = true)
    (calls : references ⊆ references') :
    ∀ a, Shown written sets references a → Shown written sets' references' a
  | .append _, _ => trivial
  | .setAttribute _ _, shown => attributes shown
  | .call _ _, ⟨referred, smaller⟩ => ⟨calls referred, smaller⟩

mutual

/-- Steps do what they show, and fail for nothing else. -/
theorem accounted_traceOps (place : Place) (scope : Scope) :
    ∀ ops : List Op,
      Accounted p place (Shown scope.fields (Op.anySetsAttribute ops) (Op.allReferences ops))
        (traceOps p place scope ops)
  | [] => by
    rw [traceOps]
    exact .quiet nofun
  | op :: rest => by
    rw [traceOps, Op.anySetsAttribute, Op.allReferences]
    have first := accounted_traceOp place scope op
    have others := accounted_traceOps place scope rest
    refine (first.mono (Shown.mono ?_ (List.subset_append_left _ _))).bind
      fun _ _ => others.mono (Shown.mono ?_ (List.subset_append_right _ _))
    · exact fun sets => Bool.or_eq_true_iff.2 (.inl sets)
    · exact fun sets => Bool.or_eq_true_iff.2 (.inr sets)

theorem accounted_traceOp (place : Place) (scope : Scope) :
    ∀ op : Op, Accounted p place (Shown scope.fields op.setsAttribute op.references)
      (traceOp p place scope op)
  | .ifPresent field body => by
    rw [traceOp, Op.setsAttribute, Op.references]
    exact .ifSome fun v => accounted_traceOps place (scope.withPresent v.1 _) body
  | .element tag source => by
    rw [traceOp]
    refine .bind (.quiet (failsOfValue_require source tag)) fun v _ => ?_
    refine .bind (.quiet (failsOfValue_textOf tag v)) fun text _ => ?_
    exact .append trivial
  | .attr name source => by
    rw [traceOp]
    refine .bind (.quiet (failsOfValue_require source name)) fun v _ => ?_
    refine .bind (.quiet (failsOfValue_textOf name v)) fun text _ => ?_
    exact .setAttribute rfl
  | .boolean tag source => by
    rw [traceOp]
    refine .bind (.quiet (failsOfValue_require source tag)) fun v _ => ?_
    refine .bind (.quiet (failsOfValue_booleanOf tag v)) fun text _ => ?_
    exact .append trivial
  | .struct tag declared shape source => by
    rw [traceOp, Op.references]
    refine .bind (.quiet (failsOfValue_requireFields source tag)) fun fields required => ?_
    have may : shape ∈ [shape] ∧ sizeOf fields < sizeOf scope.fields :=
      ⟨List.mem_singleton_self shape, Scope.requireFields_lt required⟩
    exact .bind (.call may) fun content _ => .append trivial
  | .forEach none source body => by
    rw [traceOp, Op.setsAttribute, Op.references]
    refine .bind (.known (failsOfValue_items source _)) fun items _ => ?_
    exact .forEach fun v member => accounted_traceOps place (scope.withItem v _) body
  | .forEach (some tag) source body => by
    rw [traceOp, Op.references]
    refine .bind (.known (failsOfValue_items source _)) fun items _ => ?_
    have inner : Accounted p .element
        (Shown scope.fields (Op.anySetsAttribute body) (Op.allReferences body))
        (.forEach items.1 fun v member =>
          traceOps p .element (scope.withItem v (Scope.items_lt items.2 v member)) body) :=
      .forEach fun v member => accounted_traceOps .element (scope.withItem v _) body
    -- An attribute that is set inside is one of the wrapper, so of this only the calls show.
    exact .bind (inner.elsewhere fun _ _ shown => shown) fun content _ => .append trivial

end

/-- The record of some steps tells what there is to tell of a run. -/
structure Recorded (p : Program) (place : Place) (scope : Scope) (ops : List Op) : Prop where
  /-- What is written is what was done to the place. -/
  written : (traceOps p place scope ops).written = runOps p place scope ops
  reason : ∀ {e}, runOps p place scope ops = .error e →
    Reason p place (traceOps p place scope ops).actions e
  /-- Nothing else of the program matters than what comes of the calls. -/
  calls : ∀ {q : Program}, (∀ a ∈ (traceOps p place scope ops).actions, a.Alike p q) →
    runOps q place scope ops = runOps p place scope ops

theorem recorded (p : Program) (place : Place) (scope : Scope) (ops : List Op) :
    Recorded p place scope ops where
  written := written_traceOps place scope ops
  reason failed := by
    rw [← written_traceOps] at failed
    exact (accounted_traceOps place scope ops).reason (map_eq_error_iff.1 failed)
  calls alike := by
    rw [← written_traceOps, ← written_traceOps, traceOps_congr place scope ops alike]

/-! ## Failures of a run -/

/-- The routine of one structure shows a call of another's. -/
def MayCall (p : Program) (caller callee : String) : Prop :=
  ∃ r, p.routine? caller = some r ∧ callee ∈ r.references

/-- Where in the program a failure comes from that is not one of a value. -/
inductive Origin (p : Program) (place : Place) (shape : String) : RunError → Prop
  /-- The calls shown from the routine on lead to a structure without one. -/
  | missing {callee : String} :
      Relation.ReflTransGen (MayCall p) shape callee → p.routine? callee = none →
      Origin p place shape (.missingRoutine callee)
  /-- The routine fills the document and shows that it sets an attribute. -/
  | onDocument {r : Routine} {name : String} :
      place = .document → p.routine? shape = some r → r.setsAttribute = true →
      Origin p place shape (.attributeOnDocument name)

/-- A routine fails for a value, or there is a place in the program where it fails. -/
theorem origin_of_runRoutine {shape : String} {fields : List (String × Value)} {e : RunError}
    (failed : runRoutine p place shape fields = .error e) : e.OfValue ∨ Origin p place shape e := by
  -- Routines may call each other in a circle, but each call is for a smaller structure.
  induction size : sizeOf fields using Nat.strongRecOn generalizing place shape fields with
  | ind n ih =>
    unfold runRoutine at failed
    split at failed
    · rename_i missing
      cases failed
      exact .inr (.missing .refl missing)
    · rename_i r own
      have accounted := accounted_traceOps (p := p) place (.ofFields fields) r.ops
      cases (recorded p place _ r.ops).reason failed with
      | value ofValue => exact .inl ofValue
      | onDocument set isDocument => exact .inr (.onDocument isDocument own (accounted.may _ set))
      | @call callee inner _ called failed =>
        obtain ⟨referred, smaller⟩ := accounted.may _ called
        rcases ih (sizeOf inner) (size ▸ smaller) failed rfl with ofValue | origin
        · exact .inl ofValue
        · cases origin with
          | missing reached missing => exact .inr (.missing (reached.head ⟨r, own, referred⟩) missing)
          | onDocument isDocument _ _ => cases isDocument

theorem origin_of_serialize {root : String} {payload : Option String}
    (plan : p.plan = .document root payload) {declared : Bool} {request : Option Value}
    {e : RunError} (failed : p.serialize declared request = .error e) :
    e.OfValue ∨ Origin p .document root e := by
  have ran := map_eq_error_iff.1 failed
  unfold Program.run at ran
  rcases bind_eq_error_iff.1 ran with failed | ⟨fields, -, ran⟩
  · exact .inl (failsOfValue_requestFields p.operation request failed)
  · rw [plan] at ran
    rcases bind_eq_error_iff.1 ran with failed | ⟨found, -, ran⟩
    · exact .inl (failsOfValue_rootFields payload fields failed)
    · cases found with
      | none => cases ran
      | some top =>
        rcases bind_eq_error_iff.1 ran with failed | ⟨content, -, ran⟩
        · exact origin_of_runRoutine failed
        · cases ran

/-- What steps show is all that they do, in every program.  By the record of what they do, they set
an attribute of their place only if one of them shows it, and call only routines that they show.  So
a document fails for an attribute of its own only if the routine of its root shows that it sets one.
For want of a routine it fails only if the root has none, or if a routine that is reached from the
root by calls that show shows a call of the one that is missing. -/
theorem analyses_sound (p : Program) :
    (∀ place scope ops, Recorded p place scope ops ∧
      (∀ name value, .setAttribute name value ∈ (traceOps p place scope ops).actions →
        ∃ op ∈ ops, op.setsAttribute = true) ∧
      ∀ shape fields, .call shape fields ∈ (traceOps p place scope ops).actions →
        shape ∈ Op.allReferences ops) ∧
    ∀ root payload, p.plan = .document root payload → ∀ declared request,
      (∀ name, p.serialize declared request = .error (.attributeOnDocument name) →
        ∃ r, p.routine? root = some r ∧ r.setsAttribute = true) ∧
      ∀ shape, p.serialize declared request = .error (.missingRoutine shape) →
        p.routine? shape = none ∧
          (shape = root ∨
            ∃ caller, Relation.ReflTransGen (MayCall p) root caller ∧ MayCall p caller shape) := by
  constructor
  · intro place scope ops
    have accounted := accounted_traceOps (p := p) place scope ops
    refine ⟨recorded p place scope ops, fun name value set => ?_, fun shape fields called => ?_⟩
    · exact Op.anySetsAttribute_iff.1 (accounted.may _ set)
    · exact (accounted.may _ called).1
  · intro root payload plan declared request
    refine ⟨fun name failed => ?_, fun shape failed => ?_⟩
    · rcases origin_of_serialize plan failed with ofValue | origin
      · exact ofValue.elim
      · cases origin with
        | onDocument _ own sets => exact ⟨_, own, sets⟩
    · rcases origin_of_serialize plan failed with ofValue | origin
      · exact ofValue.elim
      · cases origin with
        | missing reached missing => exact ⟨missing, reached.cases_tail⟩

/-! ## A program that was not compiled

A shelf has its number as an attribute, which a document cannot have, and its books lead to persons,
for which there is no routine. -/

/-- The program that puts a shelf. -/
def shelfProgram : Program :=
  ⟨"PutShelf", .document "Shelf" none,
    .ofList [
      ("Book", ⟨"Book",
        [.element "Title" (.field "Title"),
         .ifPresent "Author" [.struct "Author" none "Person" .present]]⟩),
      ("Shelf", ⟨"Shelf",
        [.forEach (some "Books") (.field "Books") [.struct "Book" none "Book" .item],
         .ifPresent "Number" [.attr "number" .present]]⟩)]⟩

/-- A shelf with a number, and one with a book that has an author. -/
theorem analyses_sound_shelf :
    (shelfProgram.serialize true (some (.struct [("Number", .text "7")])) =
        .error (.attributeOnDocument "number") ∧
      ∃ r, shelfProgram.routine? "Shelf" = some r ∧ r.setsAttribute = true) ∧
    (shelfProgram.serialize true (some (.struct [("Books", .list [
        .struct [("Title", .text "Emma"), ("Author", .struct [])]])])) =
        .error (.missingRoutine "Person") ∧
      shelfProgram.routine? "Person" = none ∧
        ("Person" = "Shelf" ∨ ∃ caller,
          Relation.ReflTransGen (MayCall shelfProgram) "Shelf" caller ∧
            MayCall shelfProgram caller "Person")) := by
  have plan : shelfProgram.plan = .document "Shelf" none := rfl
  have numbered : shelfProgram.serialize true (some (.struct [("Number", .text "7")])) =
      .error (.attributeOnDocument "number") := by cbv
  have authored : shelfProgram.serialize true (some (.struct [("Books", .list [
      .struct [("Title", .text "Emma"), ("Author", .struct [])]])])) =
      .error (.missingRoutine "Person") := by cbv
  exact ⟨⟨numbered, ((analyses_sound shelfProgram).2 _ _ plan true _).1 _ numbered⟩,
    authored, ((analyses_sound shelfProgram).2 _ _ plan true _).2 _ authored⟩

end WireBody.Run
