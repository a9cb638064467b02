import WireBody.Program.Form
import WireBody.Proofs.Json.Printed
import WireBody.Proofs.Json.Rearranged
import WireBody.Proofs.Outcome

/-!
# Programs and the documents that show them

Taking a program back from the document that shows it gives the program, whatever the order in which
the entries of objects stand there.  Each step names its kind, and what is left out of a document is
what is absent; so nothing of a program is lost in its document, and two programs that are shown
alike are the same.

Main statement: `Program.ofJson?_toJson`.
-/

set_option autoImplicit false

namespace WireBody

open WireBody.Json

namespace Program

/-! ## Entries -/

section Entries

variable {entries entries' : List (String × Json)} {name : String}

theorem textAt?_of_same (same : SameEntries entries entries') {s : String}
    (given : entries.lookup name = some (.string s)) : textAt? entries' name = some s := by
  obtain ⟨k, found, moved⟩ := same.found _ given
  rw [textAt?, found, moved.string_left]
  rfl

/-- An entry that may be left out is read back, present or absent. -/
theorem optionalAt?_of_same {α : Type} (same : SameEntries entries entries') {f : α → Json}
    {d : Json → Option α} (back : ∀ a j, (f a).Rearranged j → d j = some a) {o : Option α}
    (given : entries.lookup name = o.map f) : optionalAt? entries' name d = some o := by
  unfold optionalAt?
  cases o with
  | none => rw [same.absent _ given]
  | some a =>
    obtain ⟨k, found, moved⟩ := same.found _ given
    rw [found]
    simp only [back a k moved, Option.map_some]

theorem bodyAt?_eq (entries : List (String × Json)) :
    bodyAt? entries =
      (entries.lookup "body").bind fun | .array items => opsOf? items | _ => none := by
  induction entries with
  | nil => rw [bodyAt?]; rfl
  | cons e rest ih =>
    obtain ⟨name, j⟩ := e
    rw [lookup_cons_ite]
    by_cases own : "body" = name
    · rw [← own, if_pos rfl, Option.bind_some]
      cases j <;> rw [bodyAt?] <;> simp
    · rw [if_neg own, ← ih, bodyAt?]
      · intro items same
        exact own (Prod.mk.inj same).1.symm
      · intro k same
        exact own (Prod.mk.inj same).1.symm

end Entries

/-! ## Steps -/

/-- The three ways to find a value are told apart. -/
theorem Source.ofJson?_of_rearranged (source : Source) {j : Json}
    (moved : source.toJson.Rearranged j) : Source.ofJson? j = some source := by
  cases source with
  | field name =>
    obtain ⟨k, rfl, inner⟩ := moved.single_left
    rw [inner.string_left]
    rfl
  | present =>
    rw [moved.string_left]
    rfl
  | item =>
    rw [moved.string_left]
    rfl

theorem NamespaceDeclaration.ofJson?_of_rearranged (n : NamespaceDeclaration) {j : Json}
    (moved : n.toJson.Rearranged j) : NamespaceDeclaration.ofJson? j = some n := by
  obtain ⟨entries, rfl, same⟩ := moved.sameEntries ["name", "uri"] rfl (by decide)
  have name : textAt? entries "name" = some n.name := textAt?_of_same same rfl
  have uri : textAt? entries "uri" = some n.uri := textAt?_of_same same rfl
  simp only [ofJson?, entriesOf?, name, uri, Option.bind_eq_bind, Option.bind_some, Option.pure_def]

theorem sourceAt?_of_same {entries entries' : List (String × Json)}
    (same : SameEntries entries entries') {source : Source}
    (given : entries.lookup "input" = some source.toJson) : sourceAt? entries' = some source := by
  obtain ⟨k, found, moved⟩ := same.found _ given
  rw [sourceAt?, found, Option.bind_some, source.ofJson?_of_rearranged moved]

/-- Text under a name is read back where it may be left out. -/
theorem textOf?_of_rearranged (s : String) (j : Json) (moved : (Json.string s).Rearranged j) :
    textOf? j = some s := by
  rw [moved.string_left]
  rfl

mutual

/-- A step is read back from its document: by the name of its kind, and by what it has. -/
theorem Op.ofJson?_of_rearranged : ∀ (op : Op) {j : Json}, op.toJson.Rearranged j →
    Op.ofJson? j = some op
  | .ifPresent field body, j, moved => by
    obtain ⟨entries, rfl, same⟩ :=
      moved.sameEntries ["op", "field", "body"] rfl (by decide)
    have hasKind : textAt? entries "op" = some "if_present" := textAt?_of_same same rfl
    have hasField : textAt? entries "field" = some field := textAt?_of_same same rfl
    have hasBody : bodyAt? entries = some body := bodyAt?_of_same same body rfl
    simp [Op.ofJson?, hasKind, hasField, hasBody]
  | .element tag source, j, moved => by
    obtain ⟨entries, rfl, same⟩ :=
      moved.sameEntries ["op", "tag", "input"] rfl (by decide)
    have hasKind : textAt? entries "op" = some "element" := textAt?_of_same same rfl
    have hasTag : textAt? entries "tag" = some tag := textAt?_of_same same rfl
    have hasSource : sourceAt? entries = some source := sourceAt?_of_same same rfl
    simp [Op.ofJson?, hasKind, hasTag, hasSource]
  | .attr name source, j, moved => by
    obtain ⟨entries, rfl, same⟩ :=
      moved.sameEntries ["op", "name", "input"] rfl (by decide)
    have hasKind : textAt? entries "op" = some "attribute" := textAt?_of_same same rfl
    have hasName : textAt? entries "name" = some name := textAt?_of_same same rfl
    have hasSource : sourceAt? entries = some source := sourceAt?_of_same same rfl
    simp [Op.ofJson?, hasKind, hasName, hasSource]
  | .boolean tag source, j, moved => by
    obtain ⟨entries, rfl, same⟩ :=
      moved.sameEntries ["op", "tag", "input"] rfl (by decide)
    have hasKind : textAt? entries "op" = some "boolean" := textAt?_of_same same rfl
    have hasTag : textAt? entries "tag" = some tag := textAt?_of_same same rfl
    have hasSource : sourceAt? entries = some source := sourceAt?_of_same same rfl
    simp [Op.ofJson?, hasKind, hasTag, hasSource]
  | .struct tag declared shape source, j, moved => by
    rw [Op.toJson] at moved
    obtain ⟨entries, rfl, same⟩ := moved.sameEntries _ rfl (by cases declared <;> simp [entryOf])
    have hasKind : textAt? entries "op" = some "structure" := textAt?_of_same same rfl
    have hasTag : textAt? entries "tag" = some tag := textAt?_of_same same rfl
    have hasDeclared : optionalAt? entries "namespace" NamespaceDeclaration.ofJson? = some declared :=
      optionalAt?_of_same same (fun n j => n.ofJson?_of_rearranged) (by cases declared <;> rfl)
    have hasShape : textAt? entries "shape" = some shape :=
      textAt?_of_same same (by cases declared <;> rfl)
    have hasSource : sourceAt? entries = some source :=
      sourceAt?_of_same same (by cases declared <;> rfl)
    simp [Op.ofJson?, hasKind, hasTag, hasDeclared, hasShape, hasSource]
  | .forEach wrapper source body, j, moved => by
    rw [Op.toJson] at moved
    obtain ⟨entries, rfl, same⟩ := moved.sameEntries _ rfl (by cases wrapper <;> simp [entryOf])
    have hasKind : textAt? entries "op" = some "for_each" := textAt?_of_same same rfl
    have hasWrapper : optionalAt? entries "wrapper" textOf? = some wrapper :=
      optionalAt?_of_same same textOf?_of_rearranged (by cases wrapper <;> rfl)
    have hasSource : sourceAt? entries = some source :=
      sourceAt?_of_same same (by cases wrapper <;> rfl)
    have hasBody : bodyAt? entries = some body :=
      bodyAt?_of_same same body (by cases wrapper <;> rfl)
    simp [Op.ofJson?, hasKind, hasWrapper, hasSource, hasBody]

theorem opsOf?_of_rearranged : ∀ (ops : List Op) {items : List Json},
    List.Forall₂ Rearranged (opsToJson ops) items → opsOf? items = some ops
  | [], items, each => by
    rw [opsToJson, List.forall₂_nil_left_iff] at each
    rw [each, opsOf?]
  | op :: rest, items, each => by
    rw [opsToJson, List.forall₂_cons_left_iff] at each
    obtain ⟨j, others, first, each, rfl⟩ := each
    rw [opsOf?, op.ofJson?_of_rearranged first, opsOf?_of_rearranged rest each]
    rfl

theorem bodyAt?_of_same {entries entries' : List (String × Json)}
    (same : SameEntries entries entries') : ∀ (body : List Op),
    entries.lookup "body" = some (.array (opsToJson body)) → bodyAt? entries' = some body
  | body, given => by
    obtain ⟨k, found, moved⟩ := same.found _ given
    obtain ⟨items, rfl, each⟩ := moved.array_left
    rw [bodyAt?_eq, found, Option.bind_some]
    exact opsOf?_of_rearranged body each

end

/-! ## Routines and plans -/

theorem Routine.ofJson?_of_rearranged (r : Routine) {j : Json} (moved : r.toJson.Rearranged j) :
    Routine.ofJson? j = some r := by
  obtain ⟨entries, rfl, same⟩ := moved.sameEntries ["shape", "ops"] rfl (by decide)
  have hasShape : textAt? entries "shape" = some r.shape := textAt?_of_same same rfl
  obtain ⟨k, hasOps, moved⟩ := same.found "ops" rfl
  obtain ⟨items, rfl, each⟩ := moved.array_left
  simp [Routine.ofJson?, entriesOf?, hasShape, hasOps, opsOf?_of_rearranged r.ops each]

theorem Plan.ofJson?_of_rearranged (plan : Plan) {j : Json} (moved : plan.toJson.Rearranged j) :
    Plan.ofJson? j = some plan := by
  cases plan with
  | empty =>
    obtain ⟨entries, rfl, same⟩ := moved.sameEntries ["kind"] rfl (by decide)
    have hasKind : textAt? entries "kind" = some "empty" := textAt?_of_same same rfl
    simp [Plan.ofJson?, entriesOf?, hasKind]
  | raw field =>
    obtain ⟨entries, rfl, same⟩ := moved.sameEntries ["kind", "field"] rfl (by decide)
    have hasKind : textAt? entries "kind" = some "raw" := textAt?_of_same same rfl
    have hasField : textAt? entries "field" = some field := textAt?_of_same same rfl
    simp [Plan.ofJson?, entriesOf?, hasKind, hasField]
  | document root payload =>
    rw [Plan.toJson] at moved
    obtain ⟨entries, rfl, same⟩ := moved.sameEntries _ rfl (by cases payload <;> simp [entryOf])
    have hasKind : textAt? entries "kind" = some "document" := textAt?_of_same same rfl
    have hasRoot : textAt? entries "root" = some root := textAt?_of_same same rfl
    have hasPayload : optionalAt? entries "payload" textOf? = some payload :=
      optionalAt?_of_same same textOf?_of_rearranged (by cases payload <;> rfl)
    simp [Plan.ofJson?, entriesOf?, hasKind, hasRoot, hasPayload]

/-- Routines are read back under the names of their structures, in whatever order they stand. -/
theorem routinesOf?_of_rearranged (routines : NameMap Routine) {j : Json}
    (moved : (routinesToJson routines).Rearranged j) : routinesOf? j = some routines := by
  obtain ⟨kept, entries, rfl, each, order⟩ := moved.object_left
  have read : List.Forall₂ (fun e r => (Routine.ofJson? e.2).map (e.1, ·) = some r)
      kept routines.entries := by
    rw [List.forall₂_map_left_iff] at each
    refine each.flip.imp fun e r shown => ?_
    rw [r.2.ofJson?_of_rearranged shown.2, Option.map_some, ← shown.1]
  -- The entries have moved, so what is read of them are the routines in another order.
  obtain ⟨back, read, order⟩ := List.perm_comp_forall₂ order.symm read
  have same : NameMap.ofList back = routines := by
    have distinct : (back.map (·.1)).Nodup :=
      (order.map Prod.fst).nodup_iff.2 (NameMap.nodup_keys routines)
    refine NameMap.ext_get? fun name => ?_
    rw [NameMap.get?_ofList, lastOf_of_nodup distinct, NameMap.get?,
      lookup_eq_of_perm order (countP_names_le_one distinct name)]
  rw [routinesOf?, entriesOf?, Option.bind_eq_bind, Option.bind_some, mapM_eq_some_iff.2 read,
    Option.bind_eq_bind, Option.bind_some, same, Option.pure_def]

/-! ## Programs -/

theorem ofJson?_of_rearranged (p : Program) {j : Json} (moved : p.toJson.Rearranged j) :
    ofJson? j = some p := by
  obtain ⟨entries, rfl, same⟩ :=
    moved.sameEntries ["operation", "plan", "routines"] rfl (by decide)
  have hasOperation : textAt? entries "operation" = some p.operation := textAt?_of_same same rfl
  obtain ⟨plan, hasPlan, planMoved⟩ := same.found "plan" rfl
  obtain ⟨routines, hasRoutines, routinesMoved⟩ := same.found "routines" rfl
  simp [ofJson?, entriesOf?, hasOperation, hasPlan, hasRoutines,
    p.plan.ofJson?_of_rearranged planMoved, routinesOf?_of_rearranged p.routines routinesMoved]

/-! ## Printed programs -/

theorem Source.textual_toJson (source : Source) : source.toJson.Textual := by
  cases source with
  | field name => exact .object (List.forall_mem_singleton.2 (.string name))
  | present => exact .string "present"
  | item => exact .string "item"

theorem NamespaceDeclaration.textual_toJson (n : NamespaceDeclaration) : n.toJson.Textual := by
  apply Textual.object
  simp [Textual.string]

/-- An entry that may be left out holds strings alone if its value does. -/
theorem textual_entryOf {α : Type} {name : String} {f : α → Json} (textual : ∀ a, (f a).Textual)
    (o : Option α) : ∀ e ∈ entryOf name f o, e.2.Textual := by
  cases o with
  | none => exact nofun
  | some a => exact List.forall_mem_singleton.2 (textual a)

mutual

theorem Op.textual_toJson : ∀ op : Op, op.toJson.Textual
  | .ifPresent field body => by
    rw [Op.toJson]
    apply Textual.object
    simp [Textual.string, Textual.array (textual_opsToJson body)]
  | .element tag source | .attr tag source | .boolean tag source => by
    rw [Op.toJson]
    apply Textual.object
    simp [Textual.string, source.textual_toJson]
  | .struct tag declared shape source => by
    rw [Op.toJson]
    refine .object (List.forall_mem_append.2 ⟨List.forall_mem_append.2 ⟨?_, ?_⟩, ?_⟩)
    · simp [Textual.string]
    · exact textual_entryOf NamespaceDeclaration.textual_toJson declared
    · simp [Textual.string, source.textual_toJson]
  | .forEach wrapper source body => by
    rw [Op.toJson]
    refine .object (List.forall_mem_append.2 ⟨List.forall_mem_append.2 ⟨?_, ?_⟩, ?_⟩)
    · exact List.forall_mem_singleton.2 (.string "for_each")
    · exact textual_entryOf Textual.string wrapper
    · simp [source.textual_toJson, Textual.array (textual_opsToJson body)]

theorem textual_opsToJson : ∀ ops : List Op, ∀ j ∈ opsToJson ops, j.Textual
  | [], j, member => by
    rw [opsToJson] at member
    cases member
  | op :: rest, j, member => by
    rw [opsToJson] at member
    rcases List.mem_cons.1 member with rfl | member
    · exact op.textual_toJson
    · exact textual_opsToJson rest j member

end

theorem Plan.textual_toJson (plan : Plan) : plan.toJson.Textual := by
  cases plan with
  | empty => exact .object (List.forall_mem_singleton.2 (.string "empty"))
  | raw field =>
    apply Textual.object
    simp [Textual.string]
  | document root payload =>
    refine .object (List.forall_mem_append.2 ⟨?_, textual_entryOf Textual.string payload⟩)
    simp [Textual.string]

/-- A program is shown by strings alone. -/
theorem textual_toJson (p : Program) : p.toJson.Textual := by
  have routine (r : Routine) : r.toJson.Textual := by
    apply Textual.object
    simp [Textual.string, Textual.array (textual_opsToJson r.ops)]
  have routines : (routinesToJson p.routines).Textual :=
    .object (List.forall_mem_map.2 fun e _ => routine e.2)
  apply Textual.object
  simp [Textual.string, p.plan.textual_toJson, routines]

/-! ## The program in its document -/

/-- Every program is recovered from the document that shows it, in whatever order the entries of its
objects come: two programs whose documents are the same up to that order are the same, and so are
two that are printed alike. -/
theorem ofJson?_toJson :
    (∀ (p : Program) (j : Json), p.toJson.Rearranged j → ofJson? j = some p) ∧
      (∀ p : Program, ofJson? p.toJson = some p) ∧
      Function.Injective toJson ∧
      (∀ p q : Program, p.toJson.Rearranged q.toJson → p = q) ∧
      ∀ p q : Program, p.toJson.pretty = q.toJson.pretty → p = q := by
  have back (p : Program) : ofJson? p.toJson = some p := p.ofJson?_of_rearranged (.refl p.toJson)
  have injective : Function.Injective toJson := by
    intro p q shown
    have same : some p = some q := by rw [← back p, shown, back q]
    exact Option.some.inj same
  refine ⟨fun p j => p.ofJson?_of_rearranged, back, injective, ?rearranged, ?printed⟩
  case rearranged =>
    intro p q moved
    have same : some p = some q := by rw [← p.ofJson?_of_rearranged moved, back q]
    exact Option.some.inj same
  case printed =>
    intro p q alike
    exact injective (pretty_injective_of_textual p.textual_toJson q.textual_toJson alike)

/-- A step that has no wrapper, its entries in another order than it is shown with. -/
example :
    Op.ofJson? (.object
      [("body", .array []), ("input", .object [("field", .string "Tags")]),
       ("op", .string "for_each")]) = some (.forEach none (.field "Tags") []) := by
  rfl

end Program

end WireBody
