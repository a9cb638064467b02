import WireBody.Proofs.Direct.Faithful
import WireBody.Proofs.Run.Evaluation
import WireBody.Proofs.Service.Described
import WireBody.Proofs.Service.Supported

/-!
# Items in documents

Each item of a list is one element, in the order of the list: inside the element of the list, or in
its place if the list is flattened.  The items of a flattened list in a list stand for it, since it
has no element of its own.  The one exception is an attribute: if only flattened lists lead from it
to a text, every item sets it again, and the last one stays.

Main definitions: `innermost` takes flattened lists apart, and `KeepsItems` says that content has an
element for each item.  Main statement: `keepsItems_of_run`.
-/

set_option autoImplicit false

namespace WireBody.Direct

open WireBody.Compile
open WireBody.Program
open WireBody.Request
open WireBody.Run
open WireBody.Service
open WireBody.Xml

/-! ## Items -/

/-- A value that stands for a member, and its shape. -/
structure Item where
  member : Member
  shape : Shape
  value : Value

mutual

/-- What is written for a value: the value itself, or the items of a flattened list. -/
def innermost (g : Graph) (m : Member) (s : Shape) : Value → List Item
  | .list items =>
    match s.kind with
    | .list item true =>
      match g.shapes.get? item.target with
      | some element => innermostItems g m element items
      | none => []
    | _ => [⟨m, s, .list items⟩]
  | v => [⟨m, s, v⟩]

/-- What is written for the items of a list. -/
def innermostItems (g : Graph) (m : Member) (element : Shape) : List Value → List Item
  | [] => []
  | v :: rest => innermost g m element v ++ innermostItems g m element rest

end

/-- The element of an item.  That of a list has an element for each of its own items in turn. -/
inductive ElementOf (g : Graph) : Item → Node → Prop
  | single {m : Member} {s : Shape} {v : Value} {n : Node} :
      s.isList = false → writeValue g m s v = .ok (.child n) → n.tag? = some m.tag →
      ElementOf g ⟨m, s, v⟩ n
  | list {m item : Member} {s element : Shape} {items : List Value} {nodes : Forest} :
      s.kind = .list item false → g.shapes.get? item.target = some element →
      List.Forall₂ (ElementOf g) (innermostItems g item element items) nodes →
      ElementOf g ⟨m, s, .list items⟩ (.element m.tag [] nodes)

/-- The content of a structure has an element for each item of the field of `m`, between what the
members `before` and `after` write.  An absent field has no items. -/
inductive KeepsItems (g : Graph) (fields : List (String × Value)) (before : List Member)
    (m : Member) (after : List Member) : Content → Prop
  | kept {item : Member} {s element : Shape} {flattened : Bool} {items : List Value}
      {nodes : Forest} {first last : Content} :
      g.shapes.get? m.target = some s → s.kind = .list item flattened →
      g.shapes.get? item.target = some element →
      (fields.lookup m.label).getD (.list []) = .list items →
      List.Forall₂ (ElementOf g) (innermostItems g (itemMember m item flattened) element items)
        nodes →
      writeMembers g fields before = .ok first → writeMembers g fields after = .ok last →
      KeepsItems g fields before m after
        (first ++ (if flattened then ⟨[], nodes⟩ else .child (.element m.tag [] nodes)) ++ last)

variable {g : Graph}

theorem innermost_of_not_flattened {m : Member} {s : Shape} (whole : s.isFlattened = false)
    (v : Value) : innermost g m s v = [⟨m, s, v⟩] := by
  cases v with
  | list items =>
    rw [innermost]
    split
    · rename_i item isList
      rw [Shape.isFlattened, isList] at whole
      cases whole
    · rfl
  | _ => simp [innermost]

theorem innermost_flattened {m item : Member} {s element : Shape} {items : List Value}
    (isList : s.kind = .list item true) (found : g.shapes.get? item.target = some element) :
    innermost g m s (.list items) = innermostItems g m element items := by
  rw [innermost]
  simp only [isList, found]

/-! ## Values -/

/-- All that is written for the items is their elements. -/
def Elements (g : Graph) (items : List Item) (c : Content) : Prop :=
  c.attributes = [] ∧ List.Forall₂ (ElementOf g) items c.children

theorem Elements.append {items others : List Item} {c d : Content} (first : Elements g items c)
    (rest : Elements g others d) : Elements g (items ++ others) (c ++ d) :=
  ⟨by rw [Content.attributes_append, first.1, rest.1, List.append_nil],
    List.rel_append first.2 rest.2⟩

/-- The items of a list are written one after the other. -/
theorem elements_of_writeItems {m : Member} {element : Shape}
    (each : ∀ {v c}, writeValue g m element v = .ok c → Elements g (innermost g m element v) c)
    {items : List Value} {c : Content} (written : writeItems g m element items = .ok c) :
    Elements g (innermostItems g m element items) c := by
  induction items generalizing c with
  | nil =>
    rw [writeItems_nil] at written
    cases written
    exact ⟨rfl, .nil⟩
  | cons v rest ih =>
    obtain ⟨first, others, firstWritten, othersWritten, rfl⟩ := writeItems_cons_eq_ok_iff.1 written
    rw [innermostItems]
    exact (each firstWritten).append (ih othersWritten)

/-- A value that is no list is one element, if it is not an attribute. -/
theorem elements_of_single {m : Member} {s : Shape} (form : HasForm g m s)
    (single : s.isList = false) (isElement : s.isText = true → m.asAttribute = false) {v : Value}
    {c : Content} (written : writeValue g m s v = .ok c) : Elements g (innermost g m s v) c := by
  have whole : s.isFlattened = false := Shape.not_flattened_of_not_list single
  obtain ⟨n, rfl, tag⟩ := child_of_writeValue form whole isElement written
  rw [innermost_of_not_flattened whole]
  exact ⟨rfl, .cons (.single single written tag) .nil⟩

/-- The elements of a list stand in its own element, or in its place. -/
theorem elements_of_list {m item : Member} {s element : Shape} {flattened : Bool}
    (isList : s.kind = .list item flattened) (found : g.shapes.get? item.target = some element)
    (each : ∀ {v c}, writeValue g (itemMember m item flattened) element v = .ok c →
      Elements g (innermost g (itemMember m item flattened) element v) c)
    {v : Value} {c : Content} (written : writeValue g m s v = .ok c) :
    ∃ items nodes, v = .list items ∧
      List.Forall₂ (ElementOf g) (innermostItems g (itemMember m item flattened) element items)
        nodes ∧
      c = if flattened then ⟨[], nodes⟩ else .child (.element m.tag [] nodes) := by
  obtain ⟨items, content, rfl, below, rfl⟩ := list_of_writeValue isList found written
  obtain ⟨none, elements⟩ := elements_of_writeItems each below
  obtain ⟨attributes, nodes⟩ := content
  cases none
  exact ⟨items, nodes, rfl, elements, rfl⟩

/-- What has a step is written as elements, unless flattened lists lead from an attribute to a
text. -/
theorem elements_of_stepOf
    (unnamed : ∀ {n : String} {s : Shape}, g.shapes.get? n = some s → s.ItemsUnnamed)
    {m : Member} {s : Shape} {source : Source} {op : Op} (step : StepOf g m s source op)
    (stored : g.shapes.get? s.name = some s)
    (plain : m.asAttribute = true → ∀ e, LeadsTo g s true e → e.isText = false) {v : Value}
    {c : Content} (written : writeValue g m s v = .ok c) : Elements g (innermost g m s v) c := by
  induction step generalizing v c with
  | struct isStruct =>
    refine elements_of_single (.struct isStruct) (by rw [Shape.isList, isStruct]) ?_ written
    intro isText
    rw [Shape.isText, isStruct] at isText
    cases isText
  | @text m s source k isScalar isText =>
    have single : s.isList = false := by rw [Shape.isList, isScalar]
    refine elements_of_single (.text isScalar isText) single (fun isText => ?_) written
    by_contra attr
    have other := plain (Bool.not_eq_false _ ▸ attr) s (.here single)
    rw [isText] at other
    cases other
  | boolean isBoolean isElement =>
    refine elements_of_single (.boolean isBoolean isElement) ?_ (fun _ => isElement) written
    rw [Shape.isList, isBoolean]
  | @flattened m item s element source op isList found _ ih =>
    have plain : m.asAttribute = true → ∀ e, LeadsTo g element true e → e.isText = false :=
      fun attr e leads => plain attr e (.item isList found leads)
    obtain ⟨items, nodes, rfl, elements, rfl⟩ :=
      elements_of_list isList found (ih (g.shape_named found ▸ found) plain) written
    rw [innermost_flattened isList found]
    exact ⟨rfl, elements⟩
  | @wrapped m item s element source op isList found _ ih =>
    -- The member of a list has no name, so that its items are no attributes.
    have isElement : item.asAttribute = false :=
      Member.asAttribute_of_unnamed (unnamed stored item false isList)
    have plain : item.asAttribute = true → ∀ e, LeadsTo g element true e → e.isText = false :=
      fun attr => absurd (isElement.symm.trans attr) Bool.false_ne_true
    obtain ⟨items, nodes, rfl, elements, rfl⟩ :=
      elements_of_list isList found (ih (g.shape_named found ▸ found) plain) written
    rw [innermost_of_not_flattened (by rw [Shape.isFlattened, isList])]
    exact ⟨rfl, .cons (.list isList found elements) .nil⟩

/-- The elements of a list shape tell the elements of its items. -/
theorem items_of_elements {m item : Member} {s element : Shape} {flattened : Bool}
    (isList : s.kind = .list item flattened) (found : g.shapes.get? item.target = some element)
    {items : List Value} {c : Content} (elements : Elements g (innermost g m s (.list items)) c) :
    ∃ nodes,
      List.Forall₂ (ElementOf g) (innermostItems g (itemMember m item flattened) element items)
        nodes ∧
      c = if flattened then ⟨[], nodes⟩ else .child (.element m.tag [] nodes) := by
  obtain ⟨attributes, children⟩ := c
  obtain ⟨none, elements⟩ := elements
  cases none
  cases flattened with
  | true =>
    rw [innermost_flattened isList found] at elements
    exact ⟨children, elements, rfl⟩
  | false =>
    rw [innermost_of_not_flattened (by rw [Shape.isFlattened, isList]),
      List.forall₂_cons_left_iff] at elements
    obtain ⟨n, rest, own, none, rfl⟩ := elements
    cases List.forall₂_nil_left_iff.1 none
    cases own with
    | single single _ _ =>
      exact absurd isList (Shape.isList_eq_false_iff.1 single _ _)
    | list isList' found' elements =>
      cases isList.symm.trans isList'
      cases found.symm.trans found'
      exact ⟨_, elements, rfl⟩

/-! ## Members -/

/-- What a member writes stands between what those before and behind it write. -/
theorem split_of_writeMembers {fields : List (String × Value)} {before after : List Member}
    {m : Member} {c : Content} (written : writeMembers g fields (before ++ m :: after) = .ok c) :
    ∃ first own last, writeMembers g fields before = .ok first ∧
      writeMember g fields m = .ok own ∧ writeMembers g fields after = .ok last ∧
      c = first ++ own ++ last := by
  induction before generalizing c with
  | nil =>
    obtain ⟨own, last, ownWritten, lastWritten, rfl⟩ := writeMembers_cons_eq_ok_iff.1 written
    exact ⟨.empty, own, last, writeMembers_nil, ownWritten, lastWritten, rfl⟩
  | cons m' before ih =>
    obtain ⟨head, others, headWritten, othersWritten, rfl⟩ := writeMembers_cons_eq_ok_iff.1 written
    obtain ⟨first, own, last, firstWritten, ownWritten, lastWritten, rfl⟩ := ih othersWritten
    refine ⟨head ++ first, own, last, ?_, ownWritten, lastWritten, ?_⟩
    · rw [writeMembers_cons, headWritten, firstWritten]
      rfl
    · rw [Content.append_assoc, Content.append_assoc, Content.append_assoc]

/-- The content of a structure keeps the items of a list, unless they are texts that set an
attribute. -/
theorem keepsItems_of_writeMembers
    (unnamed : ∀ {n : String} {s : Shape}, g.shapes.get? n = some s → s.ItemsUnnamed)
    {fields : List (String × Value)} {before after : List Member} {m : Member} {op : Op}
    (step : MemberStepOf g m op) {s : Shape} (target : g.shapes.get? m.target = some s)
    (isList : s.isList = true)
    (plain : m.xmlAttribute = true → ∀ e, LeadsTo g s true e → e.isText = false) {c : Content}
    (written : writeMembers g fields (before ++ m :: after) = .ok c) :
    KeepsItems g fields before m after c := by
  obtain ⟨first, own, last, firstWritten, ownWritten, lastWritten, rfl⟩ :=
    split_of_writeMembers written
  obtain ⟨item, flattened, isList⟩ := Shape.isList_iff.1 isList
  obtain ⟨source, op, step⟩ : ∃ source op, StepOf g m s source op := by
    cases step with
    | always target' _ step | ifPresent target' _ step =>
      cases target.symm.trans target'
      exact ⟨_, _, step⟩
  obtain ⟨element, found⟩ := step.element isList
  rw [writeMember_of_list target isList found] at ownWritten
  obtain ⟨items, -, isItems, -, -⟩ := list_of_writeValue isList found ownWritten
  have elements := elements_of_stepOf unnamed step (g.shape_named target ▸ target)
    (fun attr => plain (Bool.and_eq_true_iff.1 attr).1) ownWritten
  rw [isItems] at elements
  obtain ⟨nodes, each, rfl⟩ := items_of_elements isList found elements
  exact .kept target isList found isItems each firstWritten lastWritten

/-! ## Runs -/

/-- What a routine of a compiled program writes into an element. -/
theorem writeMembers_of_runRoutine {p : Program} (closed : Closed g p.routines) {shape : String}
    {fields : List (String × Value)} {content : Content}
    (written : runRoutine p .element shape fields = .ok content) :
    ∃ s f ops, g.shapes.get? shape = some s ∧ s.kind = .struct f ∧
      List.Forall₂ (MemberStepOf g) f.bodyMembers ops ∧
      writeMembers g fields f.bodyMembers = .ok content := by
  unfold runRoutine at written
  split at written
  · cases written
  · rename_i r own
    obtain ⟨s, f, found, isStruct, steps⟩ := steps_of_routineOf (closed.compiled own)
    rw [runOps_eq_writeMembers (fun _ v _ => writesAlike closed v) steps (closed.closed own)]
      at written
    exact ⟨s, f, r.ops, found, isStruct, steps, written⟩

/-- The routine of the root sets no attribute, so that it writes the same into an element. -/
theorem runRoutine_root {o : Operation} {p : Program} (compiled : program g o = .ok p)
    {root : String} {payload : Option String} (plan : p.plan = .document root payload)
    (fields : List (String × Value)) :
    runRoutine p .document root fields = runRoutine p .element root fields := by
  obtain ⟨r, own, plain⟩ := root_of_plan compiled plan
  simp only [runRoutine, own]
  exact runOps_eq_of_no_attribute plain

/-- No item is lost, unless it is a text that sets an attribute.  Wherever a routine writes a
structure, be it the document or an element in it, a member that points to a list has an element for
each item of its field, in their order: inside the element of the list, or if it is flattened in
its place, between what the members before and behind it write. -/
theorem keepsItems_of_run {j : Json} (loaded : Graph.load j = .ok g) {o : Operation} {p : Program}
    (compiled : program g o = .ok p) {request : Option Value} {forest : Forest}
    (ran : p.run request = .ok (.document forest)) :
    (∃ calls, Runs p request (.ok (.document forest)) calls) ∧
    ∀ calls, Runs p request (.ok (.document forest)) calls → ∀ c ∈ calls,
      ∃ s f content, g.shapes.get? c.shape = some s ∧ s.kind = .struct f ∧
        c.outcome = .ok content ∧
        (c.caller = none ∧ content.children = forest ∨
          ∃ tag declared, (elementOf tag declared content).Occurs forest) ∧
        ∀ before m after t, f.bodyMembers = before ++ m :: after →
          g.shapes.get? m.target = some t → t.isList = true →
          (m.xmlAttribute = true → ∀ e, LeadsTo g t true e → e.isText = false) →
          KeepsItems g c.fields before m after content := by
  have closed := closed_of_program compiled
  -- The content of a call is that of the members of its structure.
  have kept {shape : String} {fields : List (String × Value)} {content : Content}
      (written : runRoutine p .element shape fields = .ok content) :
      ∃ s f, g.shapes.get? shape = some s ∧ s.kind = .struct f ∧
        ∀ before m after t, f.bodyMembers = before ++ m :: after →
          g.shapes.get? m.target = some t → t.isList = true →
          (m.xmlAttribute = true → ∀ e, LeadsTo g t true e → e.isText = false) →
          KeepsItems g fields before m after content := by
    obtain ⟨s, f, ops, found, isStruct, steps, written⟩ := writeMembers_of_runRoutine closed written
    refine ⟨s, f, found, isStruct, fun before m after t split target isList plain => ?_⟩
    rw [split] at steps written
    obtain ⟨op, -, step⟩ := exists_of_mem_left steps (List.mem_append_right _ List.mem_cons_self)
    exact keepsItems_of_writeMembers (itemsUnnamed_of_load loaded) step target isList plain written
  constructor
  · obtain ⟨calls, runs⟩ := exists_runs p request
    exact ⟨calls, ran ▸ runs⟩
  · intro calls runs
    obtain ⟨-, rfl | ⟨root, payload, top, written, others, rfl, plan, routine, outcome, orderly⟩⟩ :=
      run_of_runs runs
    · exact nofun
    · obtain ⟨whole, rfl, same⟩ := map_eq_ok_iff.1 outcome.symm
      cases same
      rw [runRoutine_root compiled plan] at routine
      refine List.forall_mem_cons.2 ⟨?root, fun c member => ?nested⟩
      case root =>
        obtain ⟨s, f, found, isStruct, items⟩ := kept routine
        exact ⟨s, f, whole, found, isStruct, rfl, .inl ⟨rfl, rfl⟩, items⟩
      case nested =>
        obtain ⟨content, tag, declared, outcome, occurs⟩ := orderly.ok rfl c member
        obtain ⟨s, f, found, isStruct, items⟩ :=
          kept ((orderly.nested c member).outcome.symm.trans outcome)
        exact ⟨s, f, content, found, isStruct, outcome, .inr ⟨tag, declared, occurs⟩, items⟩

/-! ## Folders in a folder -/

/-- The fields of a folder with two folders in it. -/
def nestedFields : List (String × Value) :=
  [("Owner", .text "x"),
   ("Inner", .list [.struct [("Owner", .text "y")], .struct [("Owner", .text "z")]])]

/-- What is written of that folder. -/
def nestedContent : Content :=
  ⟨[], [.element "Owner" [] [.text "x"],
    .element "Folder" [("xmlns", "urn:folders")] [.element "Owner" [] [.text "y"]],
    .element "Folder" [("xmlns", "urn:folders")] [.element "Owner" [] [.text "z"]]]⟩

/-- The folders in a folder are kept behind its name and its owner. -/
theorem keepsItems_of_run_folder :
    ∃ calls,
      Runs folderProgram (some (.struct [("Root", .struct nestedFields)]))
        (.ok (.document [elementOf "Root" (some ⟨"xmlns", "urn:folders"⟩) nestedContent])) calls ∧
      ∃ c ∈ calls, c.fields = nestedFields ∧ c.outcome = .ok nestedContent ∧
        KeepsItems folderGraph nestedFields
          [⟨some "Id", "Name", some "id", .body, false, true, none, false, false⟩,
           ⟨some "Owner", "Name", none, .body, true, false, none, false, false⟩]
          ⟨some "Inner", "Folders", some "Folder", .body, false, false, none, false, false⟩ []
          nestedContent := by
  obtain ⟨calls, runs, called⟩ := exists_call_of_root (p := folderProgram) rfl rfl
    List.lookup_cons_self (by cbv : runRoutine _ _ "Folder" nestedFields = .ok nestedContent)
  obtain ⟨-, kept⟩ :=
    keepsItems_of_run load_folderDescription program_putFolder (run_of_runs runs).1
  obtain ⟨s, f, content, found, isStruct, outcome, -, items⟩ := kept calls runs _ called
  cases found
  cases isStruct
  cases outcome
  exact ⟨calls, runs, _, called, rfl, rfl,
    items _ _ _ _ rfl rfl rfl fun attr => absurd attr Bool.false_ne_true⟩

/-! ## Labels of a box -/

/-- The description of one operation, which puts a box.  The labels of a box are a flattened list of
texts, and they are flagged as an attribute. -/
def boxDescription : Json :=
  .object [
    ("operations", .object [
      ("PutBox", .object [("input", .object [("shape", .string "Request")])])]),
    ("shapes", .object [
      ("Name", .object [("type", .string "string")]),
      ("Labels", .object [
        ("type", .string "list"), ("flattened", .bool true),
        ("member", .object [("shape", .string "Name")])]),
      ("Box", .object [
        ("type", .string "structure"),
        ("members", .object [
          ("Labels", .object [
            ("shape", .string "Labels"), ("locationName", .string "label"),
            ("xmlAttribute", .bool true)])])]),
      ("Request", .object [
        ("type", .string "structure"), ("required", .array [.string "Box"]),
        ("members", .object [("Box", .object [("shape", .string "Box")])])])])]

/-- The labels of a box. -/
def labelsMember : Member :=
  ⟨some "Labels", "Labels", some "label", .body, false, true, none, false, false⟩

/-- The operation that puts a box. -/
def putBox : Operation := ⟨"PutBox", some "Request"⟩

/-- The graph of the description. -/
def boxGraph : Graph :=
  Graph.assemble .none
    [⟨"Name", .scalar .string, none, false⟩,
     ⟨"Labels", .list (.element "Name") true, none, false⟩,
     ⟨"Box", .struct ⟨[labelsMember], none⟩, none, false⟩,
     ⟨"Request", .struct ⟨[⟨some "Box", "Box", none, .body, true, false, none, false, false⟩], none⟩,
       none, false⟩]
    [putBox]

/-- The program of the operation that puts a box. -/
def boxProgram : Program :=
  ⟨"PutBox", .document "Request" none,
    .ofList [("Box", ⟨"Box", [.forEach none (.field "Labels") [.attr "label" .item]]⟩),
      ("Request", ⟨"Request", [.struct "Box" none "Box" (.field "Box")]⟩)]⟩

/-- The fields of a box with two labels. -/
def boxFields : List (String × Value) := [("Labels", .list [.text "a", .text "b"])]

/-- Both labels of a box set one attribute, and the first one is lost. -/
theorem labels_not_kept :
    Graph.load boxDescription = .ok boxGraph ∧ program boxGraph putBox = .ok boxProgram ∧
    boxProgram.run (some (.struct [("Box", .struct boxFields)])) =
      .ok (.document [.element "Box" [("label", "b")] []]) ∧
    ∃ calls,
      Runs boxProgram (some (.struct [("Box", .struct boxFields)]))
        (.ok (.document [.element "Box" [("label", "b")] []])) calls ∧
      ∃ c ∈ calls, ∃ content, c.fields = boxFields ∧ c.outcome = .ok content ∧
        ¬ KeepsItems boxGraph boxFields [] labelsMember [] content := by
  obtain ⟨calls, runs, called⟩ := exists_call_of_root (p := boxProgram) rfl rfl
    List.lookup_cons_self
    (by cbv : runRoutine _ _ "Box" boxFields = .ok ⟨[("label", "a"), ("label", "b")], []⟩)
  refine ⟨rfl, by cbv, (run_of_runs runs).1, calls, runs, _, called, _, rfl, rfl, ?_⟩
  -- Two labels would be two elements, and the box has none.
  generalize same : (⟨[("label", "a"), ("label", "b")], []⟩ : Content) = content
  rintro ⟨target, isList, found, isItems, elements, -, -⟩
  cases target
  cases isList
  cases found
  cases isItems
  have none := congrArg Content.children same
  rw [Content.children_append, Content.children_append, if_pos rfl] at none
  obtain ⟨none, -⟩ := List.append_eq_nil_iff.1 none.symm
  cases (List.append_eq_nil_iff.1 none).2
  cases List.forall₂_nil_right_iff.1 elements

end WireBody.Direct
