import WireBody.Proofs.Service.Loaded
import WireBody.Proofs.Service.Carries

/-!
# What a body can be made of

Which operations have a body that can be written, said of the description alone.  The lists that a
member points to have to come to an end in something that has a form in a document, and a document
has no attributes itself.
-/

set_option autoImplicit false

namespace WireBody.Service

/-! ## Lists inside one another -/

/-- Following the members of lists from `s` ends in `e`.  `flat` says whether all lists on the way
are flattened. -/
inductive LeadsTo (g : Graph) : Shape → Bool → Shape → Prop
  | here {s : Shape} : s.isList = false → LeadsTo g s true s
  | item {s next e : Shape} {item : Member} {flattened flat : Bool} :
      s.kind = .list item flattened → g.shapes.get? item.target = some next →
      LeadsTo g next flat e → LeadsTo g s (flattened && flat) e

variable {g : Graph}

theorem LeadsTo.eq_of_not_list {s e : Shape} {flat : Bool} (leads : LeadsTo g s flat e)
    (single : s.isList = false) : flat = true ∧ e = s := by
  cases leads with
  | here _ => exact ⟨rfl, rfl⟩
  | item isList _ _ =>
    exact absurd isList (Shape.isList_eq_false_iff.1 single _ _)

/-- Where a list leads its items lead already. -/
theorem leadsTo_list_iff {s next e : Shape} {item : Member} {flattened flat : Bool}
    (isList : s.kind = .list item flattened) (found : g.shapes.get? item.target = some next) :
    LeadsTo g s flat e ↔ ∃ flat', flat = (flattened && flat') ∧ LeadsTo g next flat' e := by
  constructor
  · intro leads
    cases leads with
    | here single =>
      exact absurd isList (Shape.isList_eq_false_iff.1 single _ _)
    | @item _ _ _ _ _ flat' isList' found' leads =>
      rw [isList] at isList'
      cases isList'
      cases found.symm.trans found'
      exact ⟨flat', rfl, leads⟩
  · rintro ⟨flat', rfl, leads⟩
    exact .item isList found leads

/-- Lists lead to shapes of the graph alone. -/
theorem LeadsTo.stored {s e : Shape} {flat : Bool} (leads : LeadsTo g s flat e)
    (stored : g.shapes.get? s.name = some s) : g.shapes.get? e.name = some e := by
  induction leads with
  | here _ => exact stored
  | item _ found _ ih => exact ih (g.shape_named found ▸ found)

/-! ## Members -/

/-- The shapes that can stand at the end, as attributes or not: structures, texts and bytes, and
truth values that are no attributes. -/
inductive Terminal (attr : Bool) (e : Shape) : Prop
  | struct {f : Fields} : e.kind = .struct f → Terminal attr e
  | text : e.isText = true → Terminal attr e
  | boolean : e.kind = .scalar .boolean → attr = false → Terminal attr e

/-- A member whose lists come to such an end.  Its attribute flag counts only where all lists on the
way are flattened. -/
def Supported (g : Graph) (m : Member) : Prop :=
  ∃ s flat e, g.shapes.get? m.target = some s ∧ LeadsTo g s flat e ∧
    Terminal (m.xmlAttribute && flat) e

/-! ## Documents and operations -/

/-- A structure whose document can be written. -/
structure SupportedDocument (g : Graph) (root : Fields) : Prop where
  /-- The body members of all structures that it leads to are supported. -/
  members : ∀ {f : Fields}, Holds g root f → ∀ m ∈ f.bodyMembers, Supported g m
  /-- No text of its own members is an attribute. -/
  plain : ∀ m ∈ root.bodyMembers, m.xmlAttribute = true → ∀ {s e : Shape},
    g.shapes.get? m.target = some s → LeadsTo g s true e → e.isText = false

/-- The structure whose members make up the document of an input: its own, or those of the payload
that it declares. -/
inductive DocumentRoot (g : Graph) (input : Fields) : Fields → Prop
  | input : input.payload = none → DocumentRoot g input input
  | payload {m : Member} {t : Shape} {root : Fields} :
      input.payloadMember? = some m → g.shapes.get? m.target = some t → t.kind = .struct root →
      DocumentRoot g input root

/-- An operation whose bodies can be written. -/
inductive SupportedOperation (g : Graph) (o : Operation) : Prop
  | noInput : o.input = none → SupportedOperation g o
  /-- The payload is streamed, by itself or because its shape is. -/
  | streamed {input : String} {s : Shape} {f : Fields} {m : Member} :
      o.input = some input → g.shapes.get? input = some s → s.kind = .struct f →
      f.payloadMember? = some m →
      (m.streaming = true ∨ ∃ t, g.shapes.get? m.target = some t ∧ t.streaming = true) →
      SupportedOperation g o
  /-- The payload is a text or bytes. -/
  | text {input : String} {s t : Shape} {f : Fields} {m : Member} :
      o.input = some input → g.shapes.get? input = some s → s.kind = .struct f →
      f.payloadMember? = some m → g.shapes.get? m.target = some t → t.isText = true →
      SupportedOperation g o
  /-- There is a document. -/
  | document {input : String} {s : Shape} {f root : Fields} :
      o.input = some input → g.shapes.get? input = some s → s.kind = .struct f →
      DocumentRoot g f root → SupportedDocument g root → SupportedOperation g o

/-! ## Names -/

/-- A graph whose structures name their members, and whose lists do not. -/
structure Graph.Labelled (g : Graph) : Prop where
  members : ∀ {n : String} {s : Shape} {f : Fields}, g.shapes.get? n = some s →
    s.kind = .struct f → ∀ m ∈ f.members, m.name.isSome = true
  items : ∀ {n : String} {s : Shape}, g.shapes.get? n = some s → s.ItemsUnnamed

theorem Graph.Labelled.bodyMembers (labelled : g.Labelled) {n : String} {s : Shape} {f : Fields}
    (found : g.shapes.get? n = some s) (isStruct : s.kind = .struct f) :
    ∀ m ∈ f.bodyMembers, m.name.isSome = true :=
  fun m member => labelled.members found isStruct m (List.mem_of_mem_filter member)

end WireBody.Service
