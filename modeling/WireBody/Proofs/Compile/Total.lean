import WireBody.Proofs.Compile.Fragment
import WireBody.Proofs.Compile.Reachable

/-!
# Compiling comes to an end

Compiling goes down through lists inside one another, and along a work list of structures.  The
descent ends because no list of a checked graph comes back to itself, so the bound that it carries
decides nothing.  The work list ends, though a name may wait in it many times over, because a round
either takes a name off or works out a shape that had no routine.  Along both ways every name is one
that the check found, so compiling fails only at something that has no form in a body.

Main statement: `program_total`.
-/

set_option autoImplicit false

namespace WireBody.Compile

open WireBody.Program
open WireBody.Service

/-! ## Errors -/

/-- What an error reports is no failed lookup in the graph, whatever members it came through. -/
def CompileError.Unsupported (e : CompileError) : Prop :=
  ∀ cause, e.rootCause ≠ .graph cause

/-- Only bodies without a form make a computation fail. -/
def FailsUnsupported {α : Type} (x : Except CompileError α) : Prop :=
  ∀ e, x = .error e → e.Unsupported

section Failures

variable {α β : Type} {x : Except CompileError α}

theorem FailsUnsupported.ok (a : α) : FailsUnsupported (.ok a) := nofun

theorem FailsUnsupported.error {e : CompileError} (unsupported : e.Unsupported) :
    FailsUnsupported (.error e : Except CompileError α) := by
  rintro e' ⟨⟩
  exact unsupported

theorem FailsUnsupported.map {f : α → β} (h : FailsUnsupported x) : FailsUnsupported (x.map f) :=
  fun e failed => h e (map_eq_error_iff.1 failed)

/-- The members that an error came through are no part of its cause. -/
theorem FailsUnsupported.inMember {owner member : String} (h : FailsUnsupported x) :
    FailsUnsupported (x.mapError (.inMember owner member)) := by
  cases x with
  | ok a => exact .ok a
  | error e => exact .error (h e rfl)

theorem FailsUnsupported.mapM {f : β → Except CompileError α} {l : List β}
    (each : ∀ b ∈ l, FailsUnsupported (f b)) : FailsUnsupported (l.mapM f) := by
  intro e failed
  obtain ⟨b, member, failed⟩ := exists_of_mapM_eq_error failed
  exact each b member e failed

end Failures

variable {g : Graph}

/-! ## The descent through lists -/

/-- The items of the shape `list` are of the shape `element`. -/
inductive ItemOf (g : Graph) (element list : Shape) : Prop
  | item {m : Member} {flattened : Bool} :
      list.kind = .list m flattened → g.shapes.get? m.target = some element → ItemOf g element list

/-- What comes to an end within some bound has no endless descent. -/
theorem acc_of_bottomsOut {bound : Nat} {s : Shape} (ends : g.bottomsOut bound s = true) :
    Acc (ItemOf g) s := by
  induction bound generalizing s with
  | zero =>
    constructor
    rintro element ⟨isList, found⟩
    obtain ⟨rest, impossible, -⟩ := Graph.exists_bound_of_item isList found ends
    cases impossible
  | succ bound ih =>
    constructor
    rintro element ⟨isList, found⟩
    obtain ⟨rest, same, ends⟩ := Graph.exists_bound_of_item isList found ends
    cases same
    exact ih ends

/-- Any larger bound gives the same step: no step is cut short. -/
theorem stepFor_eq_of_bottomsOut {bound larger : Nat} (le : bound ≤ larger) {m : Member} {s : Shape}
    {source : Source} (ends : g.bottomsOut bound s = true) :
    stepFor g larger m s source = stepFor g bound m s source := by
  fun_induction stepFor g bound m s source generalizing larger with
  | case1 bound m s source f isStruct => rw [stepFor, isStruct]
  | case2 bound m s source key value flattened isMap => rw [stepFor, isMap]
  | case3 bound m s source k isScalar => rw [stepFor, isScalar]
  | case4 bound m s source item flattened isList e failed =>
    unfold stepFor
    simp only [isList, failed]
  | case5 m s source item flattened isList element found =>
    have found := shapeOf_eq_ok_iff.1 found
    obtain ⟨rest, impossible, -⟩ := Graph.exists_bound_of_item isList found ends
    cases impossible
  | case6 m s source item element found bound isList ih =>
    obtain ⟨larger, rfl⟩ := Nat.exists_eq_add_of_le' (Nat.zero_lt_of_lt le)
    obtain ⟨rest, same, ends⟩ :=
      Graph.exists_bound_of_item isList (shapeOf_eq_ok_iff.1 found) ends
    cases same
    rw [← ih (Nat.le_of_succ_le_succ le) ends, stepFor]
    simp only [isList, found, ↓reduceIte]
  | case7 m s source item flattened isList element found bound plain ih =>
    obtain ⟨larger, rfl⟩ := Nat.exists_eq_add_of_le' (Nat.zero_lt_of_lt le)
    obtain ⟨rest, same, ends⟩ :=
      Graph.exists_bound_of_item isList (shapeOf_eq_ok_iff.1 found) ends
    cases same
    rw [← ih (Nat.le_of_succ_le_succ le) ends, stepFor]
    simp only [isList, found, if_neg plain]

theorem scalarStep_total (m : Member) (s : Shape) (source : Source) (k : Scalar) :
    FailsUnsupported (scalarStep m s source k) := by
  unfold scalarStep
  split
  · exact .ok _
  · exact .ok _
  · split
    · exact .error nofun
    · exact .ok _
  all_goals exact .error nofun

/-- A descent that comes to an end finds all that it looks up. -/
theorem stepFor_total (sound : g.Sound) {bound : Nat} {m : Member} {s : Shape} {source : Source}
    (stored : g.shapes.get? s.name = some s) (ends : g.bottomsOut bound s = true) :
    FailsUnsupported (stepFor g bound m s source) := by
  fun_induction stepFor g bound m s source with
  | case1 => exact .ok _
  | case2 => exact .error fun cause => CompileError.noConfusion
  | case3 bound m s source k isScalar => exact scalarStep_total m s source k
  | case4 bound m s source item flattened isList e failed =>
    obtain ⟨element, found⟩ := sound.items stored isList
    rw [shapeOf_eq_ok_iff.2 found] at failed
    cases failed
  | case5 m s source item flattened isList element found =>
    obtain ⟨rest, impossible, -⟩ :=
      Graph.exists_bound_of_item isList (shapeOf_eq_ok_iff.1 found) ends
    cases impossible
  | case6 m s source item element found bound isList ih
  | case7 m s source item flattened isList element found bound plain ih =>
    have found := shapeOf_eq_ok_iff.1 found
    obtain ⟨rest, same, ends⟩ := Graph.exists_bound_of_item isList found ends
    cases same
    exact (ih (g.shape_named found ▸ found) ends).map

/-! ## Routines -/

theorem memberStep_total (sound : g.Sound) {m : Member} {s : Shape}
    (target : g.shapes.get? m.target = some s) : FailsUnsupported (memberStep g m) := by
  have step (source : Source) : FailsUnsupported (stepFor g g.listBound m s source) :=
    stepFor_total sound (g.shape_named target ▸ target) (sound.bounded target)
  unfold memberStep
  rw [shapeOf_eq_ok_iff.2 target]
  simp only
  split
  · exact step _
  · exact (step _).map

theorem routineOf_total (sound : g.Sound) {name : String} {s : Shape}
    (found : g.shapes.get? name = some s) : FailsUnsupported (routineOf g name) := by
  unfold routineOf
  rw [shapeOf_eq_ok_iff.2 found]
  simp only
  split
  · rename_i f isStruct
    refine (FailsUnsupported.mapM fun m member => ?_).map
    obtain ⟨t, target⟩ := sound.members found isStruct m (List.mem_of_mem_filter member)
    exact (memberStep_total sound target).inMember
  · exact .error nofun

/-! ## The work list -/

/-- A round of the work list leads from a state, what is done and what waits, to the next one. -/
inductive Round (g : Graph) : NameMap Routine × List String → NameMap Routine × List String → Prop
  /-- A name that is done already is taken off. -/
  | seen {done : NameMap Routine} {name : String} {pending : List String} :
      done.contains name = true → Round g (done, pending) (done, name :: pending)
  /-- A routine is worked out, and the structures that it calls wait. -/
  | worked {done : NameMap Routine} {name : String} {pending : List String} {r : Routine} :
      done.contains name = false → routineOf g name = .ok r →
      Round g (done.insert name r, (r.references.filter fun s => !done.contains s).reverse ++ pending)
        (done, name :: pending)

/-- There is no endless sequence of rounds, whatever is done and waits at its start. -/
theorem wellFounded_round (g : Graph) : WellFounded (Round g) := by
  refine Subrelation.wf ?_ (InvImage.wf
    (fun state => (unfinished g state.1, state.2.length)) (Prod.lex Nat.lt_wfRel Nat.lt_wfRel).wf)
  rintro next state (_ | ⟨new, compiled⟩)
  · exact Prod.Lex.right _ (Nat.lt_succ_self _)
  · obtain ⟨s, found⟩ := contains_of_routineOf compiled
    exact Prod.Lex.left _ _ (unfinished_insert_lt found new _)

/-- Where the work list stops: nothing waits any more, or a structure has no routine. -/
inductive StopsWith (g : Graph) :
    NameMap Routine × List String → Except CompileError (NameMap Routine) → Prop
  | emptied {done : NameMap Routine} : StopsWith g (done, []) (.ok done)
  | failed {done : NameMap Routine} {name : String} {pending : List String} {e : CompileError} :
      done.contains name = false → routineOf g name = .error e →
      StopsWith g (done, name :: pending) (.error e)

/-- Rounds lead from each state to where the work list stops with its outcome. -/
theorem stops_of_routinesFrom (g : Graph) (done : NameMap Routine) (pending : List String) :
    ∃ last, Relation.ReflTransGen (fun state next => Round g next state) (done, pending) last ∧
      StopsWith g last (routinesFrom g done pending) := by
  fun_induction routinesFrom g done pending with
  | case1 done => exact ⟨_, .refl, .emptied⟩
  | case2 done name pending seen ih =>
    obtain ⟨last, rounds, stops⟩ := ih
    exact ⟨last, .head (.seen seen) rounds, stops⟩
  | case3 done name pending unseen e failed =>
    exact ⟨_, .refl, .failed (Bool.not_eq_true _ ▸ unseen) failed⟩
  | case4 done name pending unseen r worked _ ih =>
    obtain ⟨last, rounds, stops⟩ := ih
    exact ⟨last, .head (.worked (Bool.not_eq_true _ ▸ unseen) worked) rounds, stops⟩

theorem routines_total (sound : g.Sound) {root : String} {s : Shape}
    (found : g.shapes.get? root = some s) : FailsUnsupported (routines g root) := by
  intro e failed
  have gathered := gathered_of_routines g root
  rw [failed] at gathered
  obtain ⟨name, reached, failed⟩ := gathered
  have stored : ∃ s, g.shapes.get? name = some s := by
    cases reached with
    | refl => exact ⟨s, found⟩
    | tail _ refers => exact refers.stored
  obtain ⟨s, found⟩ := stored
  exact routineOf_total sound found e failed

/-! ## Programs -/

theorem documentProgram_total (sound : g.Sound) {operation root : String} {payload : Option String}
    {s : Shape} (found : g.shapes.get? root = some s) :
    FailsUnsupported (documentProgram g operation root payload) := by
  unfold documentProgram
  split
  · rename_i e failed
    exact .error (routines_total sound found e failed)
  · split
    · exact .ok _
    · split
      · exact .ok _
      · split
        · exact .error nofun
        · exact .ok _

theorem payloadProgram_total (sound : g.Sound) {operation input : String} {m : Member} {t : Shape}
    (target : g.shapes.get? m.target = some t) :
    FailsUnsupported (payloadProgram g operation input m) := by
  unfold payloadProgram
  rw [streamed_of_target target, shapeOf_eq_ok_iff.2 target]
  cases m.streaming || t.streaming with
  | true => exact .ok _
  | false =>
    simp only
    split
    · exact documentProgram_total sound (g.shape_named target ▸ target)
    · exact .ok _
    · exact .ok _
    · exact .error nofun

theorem program_failsUnsupported (sound : g.Sound) {o : Operation}
    (input : ∀ name, o.input = some name → ∃ s, g.shapes.get? name = some s) :
    FailsUnsupported (program g o) := by
  unfold program
  split
  · exact .ok _
  · rename_i name given
    obtain ⟨s, found⟩ := input name given
    rw [shapeOf_eq_ok_iff.2 found]
    simp only
    split
    · rename_i f isStruct
      split
      · exact documentProgram_total sound found
      · rename_i m declared
        obtain ⟨t, target⟩ := sound.members found isStruct m (Fields.mem_of_payloadMember? declared)
        exact payloadProgram_total sound target
    · exact .error nofun

/-- Compiling comes to an end in a graph that was checked, even if its structures lead back to
themselves.  The descent from a shape through its items is finite, and a larger bound never changes
a step.  The work list has no endless sequence of rounds and runs until it is empty or a structure
has no routine.  Every operation then has a program, or an error that reports no failed lookup. -/
theorem program_total {g : Graph} (checked : g.check = .ok ()) :
    (∀ n s, g.shapes.get? n = some s → Acc (ItemOf g) s ∧
      ∀ bound, g.listBound ≤ bound → ∀ m source,
        stepFor g bound m s source = stepFor g g.listBound m s source) ∧
    WellFounded (Round g) ∧
    (∀ root, ∃ last,
      Relation.ReflTransGen (fun state next => Round g next state) (.empty, [root]) last ∧
        StopsWith g last (routines g root)) ∧
    ∀ n o, g.operations.get? n = some o →
      (∃ p, program g o = .ok p) ∨
        ∃ e, program g o = .error e ∧ ∀ cause, e.rootCause ≠ .graph cause := by
  have sound := Graph.sound_of_check checked
  refine ⟨?descent, wellFounded_round g, ?worklist, ?outcome⟩
  case descent =>
    intro n s found
    have ends := sound.bounded found
    exact ⟨acc_of_bottomsOut ends, fun bound le m source => stepFor_eq_of_bottomsOut le ends⟩
  case worklist => exact fun root => stops_of_routinesFrom g .empty [root]
  case outcome =>
    intro n o listed
    cases outcome : program g o with
    | ok p => exact .inl ⟨p, rfl⟩
    | error e =>
      have input (name : String) (given : o.input = some name) :
          ∃ s, g.shapes.get? name = some s := Graph.exists_input_of_check checked listed given
      exact .inr ⟨e, rfl, program_failsUnsupported sound input e outcome⟩

/-- Folders refer to themselves through the list of the folders in them, and still the operation
that puts one has a program or an unsupported body. -/
theorem program_total_putFolder :
    folderGraph.check = .ok () ∧ RefersTo folderGraph "Folder" "Folder" ∧
      WellFounded (Round folderGraph) ∧
      ((∃ p, program folderGraph putFolder = .ok p) ∨
        ∃ e, program folderGraph putFolder = .error e ∧ ∀ cause, e.rootCause ≠ .graph cause) := by
  have checked : folderGraph.check = .ok () := rfl
  have inner : (⟨some "Inner", "Folders", some "Folder", .body, false, false, none, false, false⟩ :
      Member) ∈ folderFields.bodyMembers := .tail _ (.tail _ (.head _))
  have refers : RefersTo folderGraph "Folder" "Folder" :=
    .member rfl rfl inner rfl (.item rfl rfl (.here rfl)) rfl rfl
  obtain ⟨-, rounds, -, outcome⟩ := program_total checked
  exact ⟨checked, refers, rounds, outcome "PutFolder" putFolder rfl⟩

end WireBody.Compile
