import Mathlib
import WireBody.Compile.Body
import WireBody.Proofs.Compile.Steps
import WireBody.Proofs.Service.Loaded

/-!
# Programs are closed

The routines of a compiled program are those of their structures, and every structure that one of
them refers to has its routine.  The work list keeps both: `Waiting` holds of each of its states,
and at the end nothing waits.

Main statements: `closed_of_routines` says this of the routines of a structure, and
`programOf_of_program` what a compiled program can be.
-/

set_option autoImplicit false

namespace WireBody.Compile

open WireBody.Program
open WireBody.Service

/-! ## Routines -/

/-- Routines of a graph that call no others than one another. -/
structure Closed (g : Graph) (routines : NameMap Routine) : Prop where
  compiled : ∀ {name r}, routines.get? name = some r → routineOf g name = .ok r
  closed : ∀ {name r}, routines.get? name = some r →
    ∀ callee ∈ r.references, routines.contains callee = true

/-- A structure that has a routine has one with a step for each of its body members. -/
theorem Closed.routine {g : Graph} {rs : NameMap Routine} (closed : Closed g rs) {s : Shape}
    {f : Fields} (stored : g.shapes.get? s.name = some s) (isStruct : s.kind = .struct f)
    (present : rs.contains s.name = true) :
    ∃ r, rs.get? s.name = some r ∧ List.Forall₂ (MemberStepOf g) f.bodyMembers r.ops ∧
      ∀ callee ∈ Op.allReferences r.ops, rs.contains callee = true := by
  obtain ⟨r, own⟩ := NameMap.contains_iff.1 present
  obtain ⟨s', f', found, isStruct', steps⟩ := steps_of_routineOf (closed.compiled own)
  rw [stored] at found
  cases found
  rw [isStruct] at isStruct'
  cases isStruct'
  exact ⟨r, own, steps, closed.closed own⟩

/-- A state of the work list: what is done is right, and what it refers to is done or waits. -/
structure Waiting (g : Graph) (done : NameMap Routine) (pending : List String) : Prop where
  compiled : ∀ {name r}, done.get? name = some r → routineOf g name = .ok r
  covered : ∀ {name r}, done.get? name = some r →
    ∀ callee ∈ r.references, done.contains callee = true ∨ callee ∈ pending

namespace Waiting

variable {g : Graph} {done : NameMap Routine} {pending : List String} {name : String} {r : Routine}

theorem start (g : Graph) (root : String) : Waiting g .empty [root] := by
  constructor
  · intro name r found
    cases found
  · intro name r found
    cases found

/-- A name that is done already need not wait. -/
theorem skip (h : Waiting g done (name :: pending)) (seen : done.contains name = true) :
    Waiting g done pending := by
  refine ⟨h.compiled, fun found callee referred => ?_⟩
  rcases h.covered found callee referred with ready | waits
  · exact .inl ready
  · rcases List.mem_cons.1 waits with rfl | waits
    · exact .inl seen
    · exact .inr waits

/-- A routine that was worked out puts what it refers to on the list. -/
theorem step (h : Waiting g done (name :: pending)) (compiled : routineOf g name = .ok r) :
    Waiting g (done.insert name r)
      ((r.references.filter fun s => !done.contains s).reverse ++ pending) := by
  constructor
  · intro n q found
    rw [NameMap.get?_insert] at found
    split at found
    · rename_i same
      cases found
      exact same ▸ compiled
    · exact h.compiled found
  · intro n q found callee referred
    rw [NameMap.contains_insert, Bool.or_eq_true, decide_eq_true_eq, List.mem_append,
      List.mem_reverse, List.mem_filter, Bool.not_eq_true']
    rw [NameMap.get?_insert] at found
    split at found
    · cases found
      cases ready : done.contains callee with
      | true => exact .inl (.inr rfl)
      | false => exact .inr (.inl ⟨referred, rfl⟩)
    · rcases h.covered found callee referred with ready | waits
      · exact .inl (.inr ready)
      · rcases List.mem_cons.1 waits with same | waits
        · exact .inl (.inl same)
        · exact .inr (.inr waits)

end Waiting

/-- The work list ends with closed routines, and with all that it was given. -/
theorem closed_of_routinesFrom {g : Graph} {done rs : NameMap Routine} {pending : List String}
    (waiting : Waiting g done pending) (compiled : routinesFrom g done pending = .ok rs) :
    Closed g rs ∧ ∀ name, done.contains name = true ∨ name ∈ pending → rs.contains name = true := by
  fun_induction routinesFrom g done pending with
  | case1 done =>
    cases compiled
    refine ⟨⟨waiting.compiled, fun found callee referred => ?_⟩, fun name ready => ?_⟩
    · exact (waiting.covered found callee referred).resolve_right List.not_mem_nil
    · exact ready.resolve_right List.not_mem_nil
  | case2 done name pending seen ih =>
    obtain ⟨closed, kept⟩ := ih (waiting.skip seen) compiled
    refine ⟨closed, fun n ready => kept n ?_⟩
    rcases ready with ready | waits
    · exact .inl ready
    · rcases List.mem_cons.1 waits with rfl | waits
      · exact .inl seen
      · exact .inr waits
  | case3 => cases compiled
  | case4 done name pending unseen r worked _ ih =>
    obtain ⟨closed, kept⟩ := ih (waiting.step worked) compiled
    refine ⟨closed, fun n ready => kept n ?_⟩
    rw [NameMap.contains_insert, Bool.or_eq_true, decide_eq_true_eq, List.mem_append]
    rcases ready with ready | waits
    · exact .inl (.inr ready)
    · rcases List.mem_cons.1 waits with same | waits
      · exact .inl (.inl same)
      · exact .inr (.inr waits)

/-- The routines of a structure are closed, and its own is among them. -/
theorem closed_of_routines {g : Graph} {root : String} {rs : NameMap Routine}
    (compiled : routines g root = .ok rs) : Closed g rs ∧ ∃ r, rs.get? root = some r := by
  obtain ⟨closed, kept⟩ := closed_of_routinesFrom (Waiting.start g root) compiled
  exact ⟨closed, NameMap.contains_iff.1 (kept root (.inr List.mem_cons_self))⟩

/-! ## What the work list stays with -/

/-- What the work list can end with, if all that it works out is of some kind: routines of this kind
alone, or the failure of one of them. -/
def Gathered (g : Graph) (Good : String → Prop) :
    Except CompileError (NameMap Routine) → Prop
  | .ok rs => ∀ name, rs.contains name = true → Good name
  | .error e => ∃ name, Good name ∧ routineOf g name = .error e

/-- If what a routine of some kind calls is of this kind, then the work list does not leave it. -/
theorem gathered_of_routinesFrom {g : Graph} {Good : String → Prop}
    (good : ∀ name r, Good name → routineOf g name = .ok r → ∀ callee ∈ r.references, Good callee)
    {done : NameMap Routine} {pending : List String}
    (ready : ∀ name, done.contains name = true → Good name)
    (waiting : ∀ name ∈ pending, Good name) : Gathered g Good (routinesFrom g done pending) := by
  fun_induction routinesFrom g done pending with
  | case1 done => exact ready
  | case2 done name pending seen ih =>
    exact ih ready fun n member => waiting n (List.mem_cons_of_mem name member)
  | case3 done name pending unseen e failed =>
    exact ⟨name, waiting name List.mem_cons_self, failed⟩
  | case4 done name pending unseen r worked _ ih =>
    have own := waiting name List.mem_cons_self
    apply ih
    · intro n present
      rw [NameMap.contains_insert, Bool.or_eq_true, decide_eq_true_eq] at present
      rcases present with rfl | present
      · exact own
      · exact ready n present
    · intro n member
      rw [List.mem_append, List.mem_reverse, List.mem_filter] at member
      rcases member with ⟨referred, -⟩ | member
      · exact good name r own worked n referred
      · exact waiting n (List.mem_cons_of_mem name member)

/-- The same of the work list that starts with a root. -/
theorem gathered_of_root {g : Graph} {Good : String → Prop}
    (good : ∀ name r, Good name → routineOf g name = .ok r → ∀ callee ∈ r.references, Good callee)
    {root : String} (own : Good root) : Gathered g Good (routines g root) :=
  gathered_of_routinesFrom good nofun (List.forall_mem_singleton.2 own)

/-! ## Programs -/

/-- The programs of a document with the members of a structure. -/
inductive DocumentOf (g : Graph) (operation root : String) (payload : Option String)
    (f : Fields) : Program → Prop
  /-- There is nothing to write. -/
  | nothing : f.bodyMembers = [] → DocumentOf g operation root payload f (.empty operation)
  /-- The routine of the root writes elements alone. -/
  | document {rs : NameMap Routine} {r : Routine} :
      Closed g rs → rs.get? root = some r →
      List.Forall₂ (MemberStepOf g) f.bodyMembers r.ops → f.bodyMembers ≠ [] →
      r.setsAttribute = false →
      DocumentOf g operation root payload f ⟨operation, .document root payload, rs⟩

/-- A member that makes up the body as it is: streamed, a text or bytes. -/
def SentRaw (g : Graph) (m : Member) : Prop :=
  m.streaming = true ∨
    ∃ s, g.shapes.get? m.target = some s ∧
      (s.streaming = true ∨ ∃ k, s.kind = .scalar k ∧ k.isText = true)

/-- The programs of an operation. -/
inductive ProgramOf (g : Graph) (o : Operation) : Program → Prop
  | noInput : o.input = none → ProgramOf g o (.empty o.name)
  /-- The input's own members are the document. -/
  | input {input : String} {s : Shape} {f : Fields} {p : Program} :
      o.input = some input → g.shapes.get? input = some s → s.kind = .struct f →
      f.payloadMember? = none → DocumentOf g o.name input none f p → ProgramOf g o p
  /-- A member of the input is the body as it is. -/
  | raw {input : String} {s : Shape} {f : Fields} {m : Member} :
      o.input = some input → g.shapes.get? input = some s → s.kind = .struct f →
      f.payloadMember? = some m → SentRaw g m → ProgramOf g o (rawProgram o.name m.label)
  /-- The members of a member of the input are the document. -/
  | payload {input : String} {s t : Shape} {f f' : Fields} {m : Member} {p : Program} :
      o.input = some input → g.shapes.get? input = some s → s.kind = .struct f →
      f.payloadMember? = some m → m.streaming = false → g.shapes.get? m.target = some t →
      t.streaming = false → t.kind = .struct f' →
      DocumentOf g o.name t.name (some m.label) f' p → ProgramOf g o p

theorem documentOf_of_documentProgram {g : Graph} {operation root : String}
    {payload : Option String} {s : Shape} {f : Fields} {p : Program}
    (found : g.shapes.get? root = some s) (isStruct : s.kind = .struct f)
    (compiled : documentProgram g operation root payload = .ok p) :
    DocumentOf g operation root payload f p := by
  unfold documentProgram at compiled
  split at compiled
  · cases compiled
  · rename_i rs routines
    obtain ⟨closed, r, own⟩ := closed_of_routines routines
    obtain ⟨s', f', found', isStruct', steps⟩ := steps_of_routineOf (closed.compiled own)
    rw [found] at found'
    cases found'
    rw [isStruct] at isStruct'
    cases isStruct'
    rw [own] at compiled
    simp only at compiled
    split at compiled
    · rename_i empty
      cases compiled
      rw [List.isEmpty_iff] at empty
      exact .nothing (List.forall₂_nil_right_iff.1 (empty ▸ steps))
    · rename_i some
      split at compiled
      · cases compiled
      · rename_i plain
        cases compiled
        refine .document closed own steps (fun empty => some ?_) (Bool.not_eq_true _ ▸ plain)
        rw [empty, List.forall₂_nil_left_iff] at steps
        rw [steps, List.isEmpty_nil]

theorem programOf_of_payloadProgram {g : Graph} {o : Operation} {input : String} {s : Shape}
    {f : Fields} {m : Member} {p : Program} (given : o.input = some input)
    (found : g.shapes.get? input = some s) (isStruct : s.kind = .struct f)
    (declared : f.payloadMember? = some m)
    (compiled : payloadProgram g o.name s.name m = .ok p) : ProgramOf g o p := by
  unfold payloadProgram streamed Graph.isStreaming at compiled
  cases streaming : m.streaming with
  | true =>
    simp only [streaming, ↓reduceIte] at compiled
    cases compiled
    exact .raw given found isStruct declared (.inl streaming)
  | false =>
    cases target : g.shapes.get? m.target with
    | none => simp [streaming, Graph.shape, target, Except.map] at compiled
    | some t =>
      cases whole : t.streaming with
      | true =>
        simp only [streaming, Graph.shape, target, Except.map, whole] at compiled
        cases compiled
        exact .raw given found isStruct declared (.inr ⟨t, target, .inl whole⟩)
      | false =>
        simp only [streaming, Graph.shape, target, Except.map, whole, shapeOf] at compiled
        simp only [Bool.false_eq_true, ↓reduceIte] at compiled
        split at compiled
        · rename_i f' isStruct'
          refine .payload given found isStruct declared streaming target whole isStruct' ?_
          exact documentOf_of_documentProgram (g.shape_named target ▸ target) isStruct' compiled
        · rename_i isString
          cases compiled
          exact .raw given found isStruct declared
            (.inr ⟨t, target, .inr ⟨.string, isString, rfl⟩⟩)
        · rename_i isBlob
          cases compiled
          exact .raw given found isStruct declared (.inr ⟨t, target, .inr ⟨.blob, isBlob, rfl⟩⟩)
        · cases compiled

/-- Compiling an operation gives one of the programs there are. -/
theorem programOf_of_program {g : Graph} {o : Operation} {p : Program}
    (compiled : program g o = .ok p) : ProgramOf g o p := by
  unfold program at compiled
  split at compiled
  · rename_i none
    cases compiled
    exact .noInput none
  · rename_i input given
    split at compiled
    · cases compiled
    · rename_i s found
      have found := shapeOf_eq_ok_iff.1 found
      split at compiled
      · rename_i f isStruct
        split at compiled
        · rename_i undeclared
          exact .input given found isStruct undeclared
            (documentOf_of_documentProgram found isStruct compiled)
        · rename_i m declared
          exact programOf_of_payloadProgram given found isStruct declared compiled
      · cases compiled

/-- The routines of a compiled program call no others than one another. -/
theorem closed_of_program {g : Graph} {o : Operation} {p : Program} (compiled : program g o = .ok p) :
    Closed g p.routines := by
  have none : Closed g (.empty : NameMap Routine) := ⟨nofun, nofun⟩
  have document {operation root : String} {payload : Option String} {f : Fields}
      (made : DocumentOf g operation root payload f p) : Closed g p.routines := by
    cases made with
    | nothing _ => exact none
    | document closed _ _ _ _ => exact closed
  cases programOf_of_program compiled with
  | noInput _ => exact none
  | raw _ _ _ _ _ => exact none
  | input _ _ _ _ made => exact document made
  | payload _ _ _ _ _ _ _ _ made => exact document made

/-- A document plan is that of the structure that it names. -/
theorem documentOf_of_plan {g : Graph} {o : Operation} {p : Program} (compiled : program g o = .ok p)
    {root : String} {payload : Option String} (plan : p.plan = .document root payload) {s : Shape}
    {f : Fields} (found : g.shapes.get? root = some s) (isStruct : s.kind = .struct f) :
    DocumentOf g o.name root payload f p := by
  cases programOf_of_program compiled with
  | noInput _ => cases plan
  | raw _ _ _ _ _ => cases plan
  | input _ found' isStruct' _ document =>
    cases document with
    | nothing _ => cases plan
    | document closed own steps nonempty plain =>
      cases plan
      cases found.symm.trans found'
      cases isStruct.symm.trans isStruct'
      exact .document closed own steps nonempty plain
  | payload _ _ _ _ _ target _ isStruct' document =>
    cases document with
    | nothing _ => cases plan
    | document closed own steps nonempty plain =>
      cases plan
      cases found.symm.trans (g.shape_named target ▸ target)
      cases isStruct.symm.trans isStruct'
      exact .document closed own steps nonempty plain

/-- The routine of a document's root writes elements alone. -/
theorem root_of_plan {g : Graph} {o : Operation} {p : Program} (compiled : program g o = .ok p)
    {root : String} {payload : Option String} (plan : p.plan = .document root payload) :
    ∃ r, p.routine? root = some r ∧ r.setsAttribute = false := by
  have document {operation root' : String} {payload' : Option String} {f : Fields}
      (made : DocumentOf g operation root' payload' f p) :
      ∃ r, p.routine? root = some r ∧ r.setsAttribute = false := by
    cases made with
    | nothing _ => cases plan
    | document _ own _ _ plain =>
      cases plan
      exact ⟨_, own, plain⟩
  cases programOf_of_program compiled with
  | noInput _ => cases plan
  | raw _ _ _ _ _ => cases plan
  | input _ _ _ _ made => exact document made
  | payload _ _ _ _ _ _ _ _ made => exact document made

/-! ## The program that puts a folder -/

/-- The steps for a folder, which call themselves for the folders in it. -/
def folderRoutine : Routine :=
  ⟨"Folder",
    [.ifPresent "Id" [.attr "id" .present],
     .element "Owner" (.field "Owner"),
     .forEach none (.field "Inner")
       [.struct "Folder" (some ⟨"xmlns", "urn:folders"⟩) "Folder" .item]]⟩

/-- The steps for a request. -/
def putFolderRoutine : Routine :=
  ⟨"Request", [.struct "Root" (some ⟨"xmlns", "urn:folders"⟩) "Folder" (.field "Root")]⟩

/-- The program of the operation that puts a folder. -/
def folderProgram : Program :=
  ⟨"PutFolder", .document "Request" none,
    .ofList [("Folder", folderRoutine), ("Request", putFolderRoutine)]⟩

theorem program_putFolder : program folderGraph putFolder = .ok folderProgram := by
  cbv

end WireBody.Compile
