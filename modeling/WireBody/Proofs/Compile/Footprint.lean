import WireBody.Proofs.Compile.Total

/-!
# What compiling looks at

An operation's program is made from few of the shapes of a graph: its input, the shape of a declared
payload, and what is met along body members and items from the structure of its document on.
`Footprint` holds the names of these shapes.  Compiling in two graphs that have the same shapes
under these names comes to the same outcome, whatever else they hold: every lookup stays inside, and
so does the work list, so that its rounds are the same ones in the same order.  The one thing that
counts all shapes is the bound for lists inside one another, and a larger bound changes no step.

Main statements: `program_eq_of_agree`, and `program_insertShape` for the insertion of a shape.
-/

set_option autoImplicit false

namespace WireBody.Compile

open WireBody.Program
open WireBody.Service

/-! ## Footprints -/

/-- The names of the shapes that are met from the structure `root` on: the targets of the members
that travel in the body, and those of the items of lists. -/
inductive Touches (g : Graph) (root : String) : String → Prop
  | root : Touches g root root
  | member {name : String} {s : Shape} {f : Fields} {m : Member} :
      Touches g root name → g.shapes.get? name = some s → s.kind = .struct f →
      m ∈ f.bodyMembers → Touches g root m.target
  | item {name : String} {s : Shape} {item : Member} {flattened : Bool} :
      Touches g root name → g.shapes.get? name = some s → s.kind = .list item flattened →
      Touches g root item.target

/-- The structure whose members make up the document of an operation: its input, or else the payload
that this declares, if that is a structure and not streamed. -/
inductive RootOf (g : Graph) (o : Operation) : String → Prop
  | input {input : String} {s : Shape} {f : Fields} :
      o.input = some input → g.shapes.get? input = some s → s.kind = .struct f →
      f.payloadMember? = none → RootOf g o input
  | payload {input : String} {s t : Shape} {f f' : Fields} {m : Member} :
      o.input = some input → g.shapes.get? input = some s → s.kind = .struct f →
      f.payloadMember? = some m → m.streaming = false → g.shapes.get? m.target = some t →
      t.streaming = false → t.kind = .struct f' → RootOf g o m.target

/-- The names of the shapes that the program of an operation is made from. -/
inductive Footprint (g : Graph) (o : Operation) : String → Prop
  | input {input : String} : o.input = some input → Footprint g o input
  | payload {input : String} {s : Shape} {f : Fields} {m : Member} :
      o.input = some input → g.shapes.get? input = some s → s.kind = .struct f →
      f.payloadMember? = some m → Footprint g o m.target
  | document {root name : String} : RootOf g o root → Touches g root name → Footprint g o name

/-- Two graphs have the same shapes, or none, under the names of a region. -/
def AgreeOn (region : String → Prop) (g g' : Graph) : Prop :=
  ∀ name, region name → g'.shapes.get? name = g.shapes.get? name

variable {g g' : Graph} {root : String}

/-- Lists lead from what is met to what is met. -/
theorem Touches.leadsTo {name : String} {s e : Shape} {flat : Bool} (touched : Touches g root name)
    (found : g.shapes.get? name = some s) (leads : LeadsTo g s flat e) :
    Touches g root e.name := by
  induction leads generalizing name with
  | here _ => exact g.shape_named found ▸ touched
  | item isList below _ ih => exact ih (.item touched found isList) below

/-- What a structure refers to is met with it. -/
theorem Touches.refersTo {owner other : String} (touched : Touches g root owner)
    (refers : RefersTo g owner other) : Touches g root other := by
  obtain ⟨found, isStruct, member, target, leads, -, rfl⟩ := refers
  exact (Touches.member touched found isStruct member).leadsTo target leads

/-! ## Lookups and steps -/

theorem shapeOf_congr {name : String} (same : g'.shapes.get? name = g.shapes.get? name) :
    shapeOf g' name = shapeOf g name := by
  unfold shapeOf Graph.shape
  rw [same]

section Agreement

variable (agree : AgreeOn (Touches g root) g g')
include agree

/-- The descent from a shape that is met looks up the shapes of its items, and these are met. -/
theorem stepFor_congr {bound : Nat} {m : Member} {name : String} {s : Shape} {source : Source}
    (touched : Touches g root name) (found : g.shapes.get? name = some s) :
    stepFor g' bound m s source = stepFor g bound m s source := by
  fun_induction stepFor g bound m s source generalizing name with
  | case1 bound m s source f isStruct => rw [stepFor, isStruct]
  | case2 bound m s source key value flattened isMap => rw [stepFor, isMap]
  | case3 bound m s source k isScalar => rw [stepFor, isScalar]
  | case4 bound m s source item flattened isList e failed =>
    have same := shapeOf_congr (agree _ (touched.item found isList))
    unfold stepFor
    simp only [isList, same, failed]
  | case5 m s source item flattened isList element below =>
    have same := shapeOf_congr (agree _ (touched.item found isList))
    unfold stepFor
    simp only [isList, same, below]
  | case6 m s source item element below bound isList ih =>
    have next := touched.item found isList
    rw [← ih next (shapeOf_eq_ok_iff.1 below), stepFor]
    simp only [isList, shapeOf_congr (agree _ next), below, ↓reduceIte]
  | case7 m s source item flattened isList element below bound plain ih =>
    have next := touched.item found isList
    rw [← ih next (shapeOf_eq_ok_iff.1 below), stepFor]
    simp only [isList, shapeOf_congr (agree _ next), below, if_neg plain]

variable (sound : g.Sound) (le : g.listBound ≤ g'.listBound)
include sound le

/-- The other graph may have more shapes and so a larger bound, but no descent comes to it. -/
theorem memberStep_congr {m : Member} (touched : Touches g root m.target) :
    memberStep g' m = memberStep g m := by
  unfold memberStep
  rw [shapeOf_congr (agree _ touched)]
  split
  · rfl
  · rename_i s found
    have found := shapeOf_eq_ok_iff.1 found
    have step (source : Source) :
        stepFor g' g'.listBound m s source = stepFor g g.listBound m s source := by
      rw [stepFor_congr agree touched found]
      exact stepFor_eq_of_bottomsOut le (sound.bounded found)
    rw [step, step]

theorem routineOf_congr {name : String} (touched : Touches g root name) :
    routineOf g' name = routineOf g name := by
  unfold routineOf
  rw [shapeOf_congr (agree _ touched)]
  split
  · rfl
  · rename_i s found
    have found := shapeOf_eq_ok_iff.1 found
    split
    · rename_i f isStruct
      refine congrArg _ (mapM_congr fun m member => ?_)
      rw [memberStep_congr agree sound le (touched.member found isStruct member)]
    · rfl

/-! ## The work list -/

/-- What waits is met, and what a routine calls is met with its structure, so that both work lists
take the same names in the same order. -/
theorem routinesFrom_congr {done : NameMap Routine} {pending : List String}
    (touched : ∀ name ∈ pending, Touches g root name) :
    routinesFrom g' done pending = routinesFrom g done pending := by
  fun_induction routinesFrom g done pending with
  | case1 done => rw [routinesFrom]
  | case2 done name pending seen ih =>
    rw [routinesFrom_of_seen pending seen]
    exact ih (List.forall_mem_cons.1 touched).2
  | case3 done name pending unseen e failed =>
    rw [← routineOf_congr agree sound le (touched name List.mem_cons_self)] at failed
    exact routinesFrom_of_error pending unseen failed
  | case4 done name pending unseen r worked _ ih =>
    obtain ⟨own, others⟩ := List.forall_mem_cons.1 touched
    have same := routineOf_congr agree sound le own
    rw [routinesFrom_of_ok pending unseen (same.trans worked)]
    refine ih fun callee waits => ?_
    rcases List.mem_append.1 waits with called | waits
    · rw [List.mem_reverse, List.mem_filter, mem_references_routine_iff worked] at called
      exact own.refersTo called.1
    · exact others callee waits

theorem documentProgram_congr (operation : String) (payload : Option String) :
    documentProgram g' operation root payload = documentProgram g operation root payload := by
  have same : routines g' root = routines g root :=
    routinesFrom_congr agree sound le (List.forall_mem_singleton.2 .root)
  unfold documentProgram
  rw [same]

end Agreement

/-! ## Programs -/

/-- The shape of a payload is looked up to see whether it is streamed, and what it consists of only
if it is not. -/
theorem payloadProgram_congr (sound : g.Sound) {o : Operation} {input : String} {s : Shape}
    {f : Fields} {m : Member} (given : o.input = some input)
    (found : g.shapes.get? input = some s) (isStruct : s.kind = .struct f)
    (declared : f.payloadMember? = some m)
    (same : g'.shapes.get? m.target = g.shapes.get? m.target)
    (document : ∀ root, RootOf g o root → ∀ payload,
      documentProgram g' o.name root payload = documentProgram g o.name root payload) :
    payloadProgram g' o.name s.name m = payloadProgram g o.name s.name m := by
  obtain ⟨t, target⟩ := sound.members found isStruct m (Fields.mem_of_payloadMember? declared)
  unfold payloadProgram
  rw [streamed_of_target target, streamed_of_target (same.trans target), shapeOf_congr same,
    shapeOf_eq_ok_iff.2 target]
  cases streams : m.streaming || t.streaming with
  | true => rfl
  | false =>
    obtain ⟨plain, whole⟩ := Bool.or_eq_false_iff.1 streams
    simp only
    split
    · rename_i f' isStruct'
      rw [g.shape_named target]
      exact document _ (.payload given found isStruct declared plain target whole isStruct') _
    all_goals rfl

/-- Graphs with the same shapes in the footprint of an operation give it the same program, or the
same error. -/
theorem program_eq_of_agree (sound : g.Sound) (le : g.listBound ≤ g'.listBound) {o : Operation}
    (agree : AgreeOn (Footprint g o) g g') : program g' o = program g o := by
  have document (root : String) (isRoot : RootOf g o root) (payload : Option String) :
      documentProgram g' o.name root payload = documentProgram g o.name root payload :=
    documentProgram_congr (fun name touched => agree name (.document isRoot touched)) sound le _ _
  unfold program
  split
  · rfl
  · rename_i input given
    rw [shapeOf_congr (agree _ (.input given))]
    split
    · rfl
    · rename_i s found
      have found := shapeOf_eq_ok_iff.1 found
      split
      · rename_i f isStruct
        split
        · rename_i undeclared
          exact document input (.input given found isStruct undeclared) none
        · rename_i m declared
          have same := agree _ (.payload given found isStruct declared)
          exact payloadProgram_congr sound given found isStruct declared same document
      · rfl

/-- The program of an operation in a checked graph, or the error that it has instead, stays as it is
when a shape is inserted whose name is outside the footprint of the operation.  The shape may be new
or take the place of another one, and the graph need not pass the check any more. -/
theorem program_insertShape {g : Graph} (checked : g.check = .ok ()) {o : Operation} {s : Shape}
    (outside : ¬ Footprint g o s.name) : program (g.insertShape s) o = program g o := by
  have le : g.listBound ≤ (g.insertShape s).listBound := g.shapes.size_le_size_insert s.name s
  refine program_eq_of_agree (Graph.sound_of_check checked) le fun name inside => ?_
  exact g.shapes.get?_insert_of_ne s fun same => outside (same ▸ inside)

/-! ## Letters

A letter has the replies to it in its body, so its structure leads back to itself.  Its stamps travel
in a header, and those of the request are left out since the letter is the payload. -/

/-- The names that are met next after a name. -/
def nextNames (g : Graph) (name : String) : List String :=
  match (g.shapes.get? name).map Shape.kind with
  | some (.struct f) => f.bodyMembers.map Member.target
  | some (.list item _) => [item.target]
  | _ => []

/-- A list that has the root, and with each name those that are met next, has all that are met. -/
theorem mem_of_touches {names : List String} (own : root ∈ names)
    (closed : ∀ name ∈ names, ∀ next ∈ nextNames g name, next ∈ names) {name : String}
    (touched : Touches g root name) : name ∈ names := by
  induction touched with
  | root => exact own
  | member _ found isStruct member ih =>
    apply closed _ ih
    simp only [nextNames, found, Option.map_some, isStruct]
    exact List.mem_map_of_mem member
  | item _ found isList ih =>
    apply closed _ ih
    simp only [nextNames, found, Option.map_some, isList]
    exact List.mem_singleton_self _

/-- The members of a letter: its stamps are no part of the body. -/
def letterFields : Fields :=
  ⟨[⟨some "Subject", "Text", none, .body, true, false, none, false, false⟩,
    ⟨some "Stamps", "Stamps", none, .header, false, false, none, false, false⟩,
    ⟨some "Replies", "Replies", none, .body, false, false, none, false, false⟩], none⟩

/-- The members of a request: the letter is the payload, so the stamps are left out. -/
def putLetterFields : Fields :=
  ⟨[⟨some "Stamps", "Stamps", none, .body, false, false, none, false, false⟩,
    ⟨some "Letter", "Letter", none, .body, false, false, none, true, false⟩], some "Letter"⟩

/-- The operation that puts a letter. -/
def putLetter : Operation := ⟨"PutLetter", some "Request"⟩

/-- Letters with their stamps and replies. -/
def letterGraph : Graph :=
  Graph.assemble .none
    [⟨"Text", .scalar .string, none, false⟩,
     ⟨"Stamps", .list (.element "Text") false, none, false⟩,
     ⟨"Replies", .list (.element "Letter") false, none, false⟩,
     ⟨"Letter", .struct letterFields, none, false⟩,
     ⟨"Request", .struct putLetterFields, none, false⟩]
    [putLetter]

/-- A list that consists of itself. -/
def endlessStamps : Shape := ⟨"Stamps", .list (.element "Stamps") false, none, false⟩

theorem mem_of_footprint_putLetter {name : String} (inside : Footprint letterGraph putLetter name) :
    name ∈ ["Request", "Letter", "Replies", "Text"] := by
  have request : letterGraph.shapes.get? "Request" =
    some ⟨"Request", .struct putLetterFields, none, false⟩ := rfl
  cases inside with
  | input given =>
    cases given
    exact List.mem_cons_self
  | payload given found isStruct declared =>
    cases given
    cases found.symm.trans request
    cases isStruct
    cases declared
    exact .tail _ (.head _)
  | document isRoot touched =>
    -- The document starts at the letter, so the request's own members are not met.
    have isLetter (root : String) (isRoot : RootOf letterGraph putLetter root) : root = "Letter" := by
      cases isRoot with
      | input given found isStruct undeclared =>
        cases given
        cases found.symm.trans request
        cases isStruct
        cases undeclared
      | payload given found isStruct declared _ _ _ _ =>
        cases given
        cases found.symm.trans request
        cases isStruct
        cases declared
        rfl
    cases isLetter _ isRoot
    have listed : name ∈ ["Letter", "Replies", "Text"] :=
      mem_of_touches List.mem_cons_self (by decide) touched
    exact List.mem_cons_of_mem _ listed

/-- Stamps that consist of themselves spoil the graph, but not the program that puts a letter. -/
theorem program_insertShape_endlessStamps :
    letterGraph.check = .ok () ∧ ¬ Footprint letterGraph putLetter endlessStamps.name ∧
      (letterGraph.insertShape endlessStamps).check = .error (.recursiveList "Stamps") ∧
      program (letterGraph.insertShape endlessStamps) putLetter = program letterGraph putLetter := by
  have checked : letterGraph.check = .ok () := rfl
  have outside : ¬ Footprint letterGraph putLetter endlessStamps.name := by
    intro inside
    have listed := mem_of_footprint_putLetter inside
    revert listed
    decide
  exact ⟨checked, outside, rfl, program_insertShape checked outside⟩

end WireBody.Compile
