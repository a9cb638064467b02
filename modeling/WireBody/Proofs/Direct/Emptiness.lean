import WireBody.Proofs.Direct.Items
import WireBody.Proofs.Run.Elements

/-!
# Bodies without content

A document without elements is sent as no bytes at all, not even a declaration, and a declaration is
never more than a prefix of what is sent without it.  Which requests make such a document can be
told member by member: a flattened list has no element of its own, so that nothing is written for it
if nothing is written for its items, and everything else that is there is written.

Main definitions: `Unwritten` is said of values and `Omitted` of members.  Main statement:
`declaration_and_emptiness`.
-/

set_option autoImplicit false

namespace WireBody.Xml

/-! ## Written documents -/

theorem write_ne_empty {n : Node} (isElement : n.IsElement) : n.write ≠ "" := by
  intro none
  cases n with
  | text s => cases isElement
  | element name attributes children =>
    have opened : '<' ∈ (Node.element name attributes children).write.toList := by
      cases children with
      | nil => simp [Node.write]
      | cons child rest => simp [Node.write]
    rw [none] at opened
    cases opened

/-- A document is written as no text exactly if it has no elements. -/
theorem writeDocument_eq_empty_iff {declared : Bool} {forest : Forest}
    (elements : ∀ n ∈ forest, n.IsElement) : writeDocument declared forest = "" ↔ forest = [] := by
  cases forest with
  | nil => exact iff_of_true rfl rfl
  | cons n rest =>
    have first := write_ne_empty (elements n List.mem_cons_self)
    refine iff_of_false ?_ (List.cons_ne_nil n rest)
    rw [writeDocument, if_neg (by simp), writeForest]
    split
    · simp [first]
    · simp [first]

end WireBody.Xml

namespace WireBody.Run

open WireBody.Request
open WireBody.Xml

/-- A document is sent as no bytes exactly if it has no elements. -/
theorem bytes_eq_empty_iff {declared : Bool} {forest : Forest}
    (elements : ∀ n ∈ forest, n.IsElement) :
    (Body.document forest).bytes declared = .empty ↔ forest = [] := by
  rw [← @writeDocument_eq_empty_iff declared forest elements, Body.bytes]
  exact String.toByteArray_inj (t := "")

/-- A declared document is the declaration and the document without it. -/
theorem bytes_declared {forest : Forest} (elements : forest ≠ []) :
    (Body.document forest).bytes true =
      declaration.toUTF8 ++ (Body.document forest).bytes false := by
  rw [Body.bytes, Body.bytes, writeDocument, writeDocument, if_neg (by simpa using elements),
    if_pos rfl, if_neg (by simpa using elements), if_neg Bool.false_ne_true]
  exact String.toByteArray_append

/-- Only a document plan gives a document with elements. -/
theorem needsDocument_of_run {p : Program} {request : Option Value} {forest : Forest}
    (ran : p.run request = .ok (.document forest)) (elements : forest ≠ []) :
    Program.needsDocument p = true := by
  unfold Program.run at ran
  obtain ⟨fields, -, ran⟩ := bind_eq_ok_iff.1 ran
  unfold Program.needsDocument
  split at ran
  · cases ran
    exact absurd rfl elements
  · obtain ⟨bytes, -, ran⟩ := bind_eq_ok_iff.1 ran
    cases ran
  · rename_i root payload plan
    rw [plan]

end WireBody.Run

namespace WireBody.Direct

open WireBody.Compile
open WireBody.Program
open WireBody.Request
open WireBody.Run
open WireBody.Service
open WireBody.Xml

/-! ## Values without elements -/

/-- Nothing is written for a value of a shape: it is a flattened list, and nothing is written for any
of its items. -/
inductive Unwritten (g : Graph) : Shape → Value → Prop
  | items {s element : Shape} {item : Member} {items : List Value} :
      s.kind = .list item true → g.shapes.get? item.target = some element →
      (∀ v ∈ items, Unwritten g element v) → Unwritten g s (.list items)

/-- Nothing is written for a member of a structure of these fields.  What is absent is not written,
unless it is a list with an element of its own. -/
inductive Omitted (g : Graph) (fields : List (String × Value)) : Member → Prop
  | absent {m : Member} {s : Shape} :
      fields.lookup m.label = none → g.shapes.get? m.target = some s →
      (s.isList = true → s.isFlattened = true) → Omitted g fields m
  | present {m : Member} {s : Shape} {v : Value} :
      fields.lookup m.label = some v → g.shapes.get? m.target = some s → Unwritten g s v →
      Omitted g fields m

variable {g : Graph}

theorem Unwritten.flattened {s : Shape} {v : Value} (unwritten : Unwritten g s v) :
    s.isFlattened = true := by
  cases unwritten with
  | items isList _ _ => rw [Shape.isFlattened, isList]

/-- What is written of items has no children exactly if nothing is written for any of them. -/
theorem children_of_items_eq_nil_iff {m : Member} {element : Shape}
    (each : ∀ {v c}, writeValue g m element v = .ok c → (c.children = [] ↔ Unwritten g element v))
    {items : List Value} {c : Content} (written : writeItems g m element items = .ok c) :
    c.children = [] ↔ ∀ v ∈ items, Unwritten g element v := by
  induction items generalizing c with
  | nil =>
    rw [writeItems_nil] at written
    cases written
    exact iff_of_true rfl (List.forall_mem_nil _)
  | cons v rest ih =>
    obtain ⟨first, others, firstWritten, othersWritten, rfl⟩ := writeItems_cons_eq_ok_iff.1 written
    rw [Content.children_append, List.append_eq_nil_iff, each firstWritten, ih othersWritten,
      List.forall_mem_cons]

/-- What is written for a value has no children exactly if nothing is written for it, where its step
sets no attribute. -/
theorem children_eq_nil_iff {m : Member} {s : Shape} {source : Source} {op : Op}
    (step : StepOf g m s source op) (plain : op.setsAttribute = false) {v : Value} {c : Content}
    (written : writeValue g m s v = .ok c) : c.children = [] ↔ Unwritten g s v := by
  have single {s : Shape} {n : Node} (whole : s.isFlattened = false) {v : Value} :
      (Content.child n).children = [] ↔ Unwritten g s v := by
    refine iff_of_false (List.cons_ne_nil n []) fun unwritten => ?_
    rw [unwritten.flattened] at whole
    cases whole
  induction step generalizing v c with
  | struct isStruct =>
    obtain ⟨fields, content, -, -, rfl⟩ := struct_of_writeValue isStruct written
    exact single (by rw [Shape.isFlattened, isStruct])
  | text isScalar isText =>
    obtain ⟨text, -, rfl⟩ := text_of_writeValue isScalar isText written
    unfold textStep at plain
    split at plain
    · cases plain
    · rename_i isElement
      rw [writeText, if_neg isElement]
      exact single (by rw [Shape.isFlattened, isScalar])
  | boolean isBoolean _ =>
    obtain ⟨b, -, rfl⟩ := boolean_of_writeValue isBoolean written
    exact single (by rw [Shape.isFlattened, isBoolean])
  | flattened isList found _ ih =>
    obtain ⟨items, content, rfl, below, rfl⟩ := list_of_writeValue isList found written
    rw [Op.setsAttribute, Op.anySetsAttribute, Op.anySetsAttribute, Bool.or_false] at plain
    rw [children_of_items_eq_nil_iff (ih plain) below]
    constructor
    · exact .items isList found
    · rintro ⟨isList', found', none⟩
      cases isList.symm.trans isList'
      cases found.symm.trans found'
      exact none
  | wrapped isList found _ _ =>
    obtain ⟨items, content, rfl, -, rfl⟩ := list_of_writeValue isList found written
    exact single (by rw [Shape.isFlattened, isList])

/-! ## Members without elements -/

theorem children_of_absent_eq_nil_iff {m : Member} {s : Shape} {c : Content}
    (written : writeAbsent m s = .ok c) :
    c.children = [] ↔ (s.isList = true → s.isFlattened = true) := by
  unfold Shape.isList Shape.isFlattened
  unfold writeAbsent at written
  split at written
  · cases written
    simp [*, Content.empty]
  · cases written
    simp [*, Content.child]
  · rename_i notFlattened notWrapped
    have nothing : c = .empty := by
      split at written
      · cases written
      · cases written
        rfl
    rw [nothing]
    refine iff_of_true rfl fun isList => ?_
    split at isList
    · rename_i item flattened kind
      cases flattened with
      | true => exact absurd kind (notFlattened item)
      | false => exact absurd kind (notWrapped item)
    · cases isList

theorem children_of_member_eq_nil_iff {m : Member} {op : Op} (step : MemberStepOf g m op)
    (plain : op.setsAttribute = false) {fields : List (String × Value)} {c : Content}
    (written : writeMember g fields m = .ok c) : c.children = [] ↔ Omitted g fields m := by
  obtain ⟨s, source, inner, target, step, plain⟩ : ∃ s source inner,
      g.shapes.get? m.target = some s ∧ StepOf g m s source inner ∧ inner.setsAttribute = false := by
    cases step with
    | always target _ step => exact ⟨_, _, _, target, step, plain⟩
    | ifPresent target _ step =>
      rw [Op.setsAttribute, Op.anySetsAttribute, Op.anySetsAttribute, Bool.or_false] at plain
      exact ⟨_, _, _, target, step, plain⟩
  cases found : fields.lookup m.label with
  | none =>
    rw [writeMember_of_none target found] at written
    rw [children_of_absent_eq_nil_iff written]
    constructor
    · exact .absent found target
    · intro omitted
      cases omitted with
      | absent _ target' mayBe =>
        cases target.symm.trans target'
        exact mayBe
      | present found' _ _ => cases found.symm.trans found'
  | some v =>
    rw [writeMember_of_some target found] at written
    rw [children_eq_nil_iff step plain written]
    constructor
    · exact .present found target
    · intro omitted
      cases omitted with
      | absent found' _ _ => cases found.symm.trans found'
      | present found' target' unwritten =>
        cases found.symm.trans found'
        cases target.symm.trans target'
        exact unwritten

theorem children_of_members_eq_nil_iff {members : List Member} {ops : List Op}
    (steps : List.Forall₂ (MemberStepOf g) members ops) (plain : Op.anySetsAttribute ops = false)
    {fields : List (String × Value)} {c : Content}
    (written : writeMembers g fields members = .ok c) :
    c.children = [] ↔ ∀ m ∈ members, Omitted g fields m := by
  induction steps generalizing c with
  | nil =>
    rw [writeMembers_nil] at written
    cases written
    exact iff_of_true rfl (List.forall_mem_nil _)
  | cons step _ ih =>
    rw [Op.anySetsAttribute, Bool.or_eq_false_iff] at plain
    obtain ⟨first, others, firstWritten, othersWritten, rfl⟩ :=
      writeMembers_cons_eq_ok_iff.1 written
    rw [Content.children_append, List.append_eq_nil_iff,
      children_of_member_eq_nil_iff step plain.1 firstWritten, ih plain.2 othersWritten,
      List.forall_mem_cons]

/-! ## Requests without content -/

/-- A request gives a document nothing to write: its payload is absent, or nothing is written for any
body member of the root. -/
inductive NothingToWrite (g : Graph) (root : String) (payload : Option String)
    (request : Option Value) : Prop
  | payload {fields : List (String × Value)} :
      request.getD (.struct []) = .struct fields → rootValue payload fields = none →
      NothingToWrite g root payload request
  | members {fields top : List (String × Value)} {s : Shape} {f : Fields} :
      request.getD (.struct []) = .struct fields → rootValue payload fields = some (.struct top) →
      g.shapes.get? root = some s → s.kind = .struct f → (∀ m ∈ f.bodyMembers, Omitted g top m) →
      NothingToWrite g root payload request

/-- A document of a compiled program has no elements exactly if there is nothing to write. -/
theorem document_eq_nil_iff {o : Operation} {p : Program} (compiled : Compile.program g o = .ok p)
    {root : String} {payload : Option String} (plan : p.plan = .document root payload)
    {request : Option Value} {forest : Forest} (ran : p.run request = .ok (.document forest)) :
    forest = [] ↔ NothingToWrite g root payload request := by
  obtain ⟨r, own, -⟩ := root_of_plan compiled plan
  obtain ⟨s, f, found, isStruct, -⟩ :=
    steps_of_routineOf ((closed_of_program compiled).compiled own)
  have document := documentOf_of_plan compiled plan found isStruct
  rw [run_of_documentOf document] at ran
  obtain ⟨fields, given, made⟩ := bind_eq_ok_iff.1 ran
  have given := requestFields_eq_ok_iff.1 given
  cases document with
  | nothing _ => cases plan
  | document _ _ steps nonempty plain =>
    rw [documentBody, if_neg (by rwa [List.isEmpty_iff]), rootFields_eq] at made
    obtain ⟨present, top, made⟩ := bind_eq_ok_iff.1 made
    cases value : rootValue payload fields with
    | none =>
      rw [value] at top
      cases top
      cases made
      exact iff_of_true rfl (.payload given value)
    | some v =>
      rw [value] at top
      simp only at top
      split at top
      · rename_i fields' opened
        obtain rfl := Value.fields?_eq_some_iff.1 opened
        cases top
        obtain ⟨content, written, made⟩ := bind_eq_ok_iff.1 made
        cases made
        rw [children_of_members_eq_nil_iff steps plain written]
        constructor
        · exact .members given value found isStruct
        · intro nothing
          cases nothing with
          | payload given' value' =>
            cases given.symm.trans given'
            cases value.symm.trans value'
          | members given' value' found' isStruct' omitted =>
            cases given.symm.trans given'
            cases value.symm.trans value'
            cases found.symm.trans found'
            cases isStruct.symm.trans isStruct'
            exact omitted
      · cases top

/-! ## Bytes -/

/-- A declaration is only ever put before what is sent without it, and nothing else is changed by
it: not an error, nor a body that is no document, nor one that is empty.  The document of a compiled
program is empty exactly if the request gives it nothing to write. -/
theorem declaration_and_emptiness (p : Program) (request : Option Value) :
    ((∃ e, p.serialize true request = .error e ∧ p.serialize false request = .error e) ∨
      (∃ bytes, p.serialize true request = .ok bytes ∧ p.serialize false request = .ok bytes ∧
        (needsDocument p = false ∨ bytes = .empty)) ∨
      (∃ bytes, needsDocument p = true ∧ bytes ≠ .empty ∧ p.serialize false request = .ok bytes ∧
        p.serialize true request =
          .ok ("<?xml version=\"1.0\" encoding=\"UTF-8\"?>\n".toUTF8 ++ bytes))) ∧
    ∀ {g : Graph} {o : Operation}, Compile.program g o = .ok p →
      ∀ {root : String} {payload : Option String}, p.plan = .document root payload →
        ∀ {declared : Bool} {bytes : ByteArray}, p.serialize declared request = .ok bytes →
          (bytes = .empty ↔ NothingToWrite g root payload request) := by
  constructor
  · unfold Program.serialize
    cases ran : p.run request with
    | error e => exact .inl ⟨e, rfl, rfl⟩
    | ok body =>
      cases body with
      | raw bytes =>
        have whole : needsDocument p = false := by
          rw [← Bool.not_eq_true]
          intro isDocument
          obtain ⟨forest, same⟩ := document_of_run isDocument ran
          cases same
        exact .inr (.inl ⟨bytes, rfl, rfl, .inl whole⟩)
      | document forest =>
        by_cases elements : forest = []
        · rw [elements]
          exact .inr (.inl ⟨.empty, rfl, rfl, .inr rfl⟩)
        · refine .inr (.inr ⟨_, needsDocument_of_run ran elements, ?_, rfl, ?_⟩)
          · rwa [ne_eq, bytes_eq_empty_iff (elements_of_run ran)]
          · exact congrArg Except.ok (bytes_declared elements)
  · intro g o compiled root payload plan declared bytes sent
    obtain ⟨body, ran, rfl⟩ := map_eq_ok_iff.1 sent
    have isDocument : needsDocument p = true := by rw [needsDocument, plan]
    obtain ⟨forest, rfl⟩ := document_of_run isDocument ran
    rw [bytes_eq_empty_iff (elements_of_run ran)]
    exact document_eq_nil_iff compiled plan ran

/-! ## Rows of tags -/

/-- The operation that puts tags. -/
def putTags : Operation := ⟨"PutTags", some "Request"⟩

/-- The graph of a service where tags come in rows.  Neither a row nor the list of rows has an
element of its own. -/
def tagsGraph : Graph :=
  Graph.assemble .none
    [⟨"Name", .scalar .string, none, false⟩,
     ⟨"Row", .list (.element "Name") true, none, false⟩,
     ⟨"Rows", .list (.element "Row") true, none, false⟩,
     ⟨"Request", .struct ⟨[⟨some "Tags", "Rows", none, .body, true, false, none, false, false⟩,
       ⟨some "Label", "Name", none, .body, false, false, none, false, false⟩], none⟩, none, false⟩]
    [putTags]

/-- The program of the operation that puts tags. -/
def tagsProgram : Program :=
  ⟨"PutTags", .document "Request" none,
    .ofList [("Request", ⟨"Request",
      [.forEach none (.field "Tags") [.forEach none .item [.element "Tags" .item]],
       .ifPresent "Label" [.element "Label" .present]]⟩)]⟩

/-- Rows without tags make a body without bytes. -/
theorem declaration_and_emptiness_rows :
    tagsGraph.check = .ok () ∧ Compile.program tagsGraph putTags = .ok tagsProgram ∧
    tagsProgram.plan = .document "Request" none ∧
    tagsProgram.serialize true (some (.struct [("Tags", .list [.list [], .list []])])) =
      .ok .empty ∧
    NothingToWrite tagsGraph "Request" none
      (some (.struct [("Tags", .list [.list [], .list []])])) := by
  have checked : tagsGraph.check = .ok () := by cbv
  have compiled : Compile.program tagsGraph putTags = .ok tagsProgram := by cbv
  have sent : tagsProgram.serialize true
      (some (.struct [("Tags", .list [.list [], .list []])])) = .ok .empty := by cbv
  have plan : tagsProgram.plan = .document "Request" none := rfl
  have empty := (declaration_and_emptiness tagsProgram _).2 compiled plan sent
  exact ⟨checked, compiled, plan, sent, empty.1 rfl⟩

end WireBody.Direct
