import WireBody.Proofs.Compile.Coverage
import WireBody.Proofs.Direct.Writer

/-!
# Which member wrote what

If the members of a structure have names of their own, then each attribute and each element of its
content belongs to one of them, and what a member wrote can be told from the content alone.

Main statements: `ownedBy_of_writeMember` says what a member writes, `members_agree` that two
structures with the same content have the same content member by member, and `content_of_elementOf`
that an element determines its content.
-/

set_option autoImplicit false

namespace WireBody.Xml

/-- The tag of an element. -/
def Node.tag? : Node → Option String
  | .element name _ _ => some name
  | .text _ => none

end WireBody.Xml

namespace WireBody.Service

/-- Whether the value of a member is an attribute of the element around it. -/
def Member.writesAttribute (g : Graph) (m : Member) : Bool :=
  m.asAttribute && (g.shapes.get? m.target).any Shape.isText

end WireBody.Service

namespace WireBody.Direct

open WireBody.Compile
open WireBody.Program
open WireBody.Request
open WireBody.Run
open WireBody.Service
open WireBody.Xml

/-! ## Names that tell members apart -/

/-- In the documents of a structure every element and every attribute can be told from the others of
its structure by its name. -/
structure Unambiguous (g : Graph) (root : Fields) : Prop where
  /-- The members that are written as elements have distinct tags. -/
  tags : ∀ {f : Fields}, Holds g root f →
    ((f.bodyMembers.filter fun m => !m.writesAttribute g).map Member.tag).Nodup
  /-- The members that are written as attributes have distinct names. -/
  attributes : ∀ {f : Fields}, Holds g root f →
    ((f.bodyMembers.filter fun m => m.writesAttribute g).map Member.tag).Nodup
  /-- No attribute has the name of the namespace declaration of its element. -/
  namespaces : ∀ {m : Member} {s : Shape} {f : Fields} {d : NamespaceDeclaration},
    Carries g root m s → s.kind = .struct f → namespaceFor m s = some d →
    ∀ m' ∈ f.bodyMembers, m'.writesAttribute g = true → m'.tag ≠ d.name
  /-- No list has a flattened list as the shape of its items. -/
  items : ∀ {m item : Member} {s element : Shape} {flattened : Bool},
    Carries g root m s → s.kind = .list item flattened →
    g.shapes.get? item.target = some element → element.isFlattened = false
  /-- No list is declared to be an attribute. -/
  lists : ∀ {f : Fields} {s : Shape}, Holds g root f → ∀ m ∈ f.bodyMembers,
    g.shapes.get? m.target = some s → s.isList = true → m.xmlAttribute = false

/-- Two members that are both attributes or both elements have different names. -/
def Apart (g : Graph) (m m' : Member) : Prop :=
  m.writesAttribute g = m'.writesAttribute g → m.tag ≠ m'.tag

variable {g : Graph} {root : Fields}

theorem Unambiguous.apart (clear : Unambiguous g root) {f : Fields} (held : Holds g root f) :
    f.bodyMembers.Pairwise (Apart g) := by
  have tags := clear.tags held
  have attributes := clear.attributes held
  rw [List.Nodup, List.pairwise_map, List.pairwise_filter] at tags attributes
  apply (tags.and attributes).imp
  rintro m m' ⟨tags, attributes⟩ same
  cases kind : m.writesAttribute g with
  | true => exact attributes kind (same ▸ kind)
  | false =>
    have kind' : m'.writesAttribute g = false := same ▸ kind
    apply tags
    · rw [kind]
      rfl
    · rw [kind']
      rfl

/-- A structure whose documents can be written and told apart, in a graph whose lists have members
without names. -/
structure Legible (g : Graph) (root : Fields) : Prop where
  writable : Writable g root
  clear : Unambiguous g root
  unnamed : ∀ {n : String} {s : Shape}, g.shapes.get? n = some s → s.ItemsUnnamed

/-- Nothing that stands for a list is declared to be an attribute. -/
theorem Legible.not_attribute_of_list (legible : Legible g root) {m : Member} {s : Shape}
    (carried : Carries g root m s) (isList : s.isList = true) : m.asAttribute = false := by
  induction carried with
  | top member found =>
    rw [Member.asAttribute, legible.clear.lists .root _ member found isList, Bool.false_and]
  | inside above isStruct member found _ =>
    have held := Holds.carried above isStruct
    rw [Member.asAttribute, legible.clear.lists held _ member found isList, Bool.false_and]
  | @item m item s element flattened above isList' found ih =>
    cases flattened with
    | true => exact ih (by rw [Shape.isList, isList'])
    | false => exact Member.asAttribute_of_unnamed (legible.unnamed above.stored item false isList')

/-- The items of a list are written as elements. -/
theorem Legible.not_attribute_of_item (legible : Legible g root) {m item : Member} {s : Shape}
    {flattened : Bool} (carried : Carries g root m s) (isList : s.kind = .list item flattened) :
    (itemMember m item flattened).asAttribute = false := by
  cases flattened with
  | true => exact legible.not_attribute_of_list carried (by rw [Shape.isList, isList])
  | false => exact Member.asAttribute_of_unnamed (legible.unnamed carried.stored item false isList)

/-! ## Single elements -/

/-- Everything but a flattened list and an attribute is one element. -/
theorem child_of_writeValue {m : Member} {s : Shape} {v : Value} {c : Content}
    (form : HasForm g m s) (whole : s.isFlattened = false)
    (isElement : s.isText = true → m.asAttribute = false)
    (written : writeValue g m s v = .ok c) : ∃ n, c = .child n ∧ n.tag? = some m.tag := by
  cases form with
  | struct isStruct =>
    obtain ⟨fields, content, -, -, rfl⟩ := struct_of_writeValue isStruct written
    exact ⟨_, rfl, rfl⟩
  | @list item element flattened isList found =>
    obtain ⟨items, content, -, -, rfl⟩ := list_of_writeValue isList found written
    rw [Shape.isFlattened, isList] at whole
    cases whole
    exact ⟨_, rfl, rfl⟩
  | text isScalar isText =>
    obtain ⟨text, -, rfl⟩ := text_of_writeValue isScalar isText written
    have plain := isElement (by rw [Shape.isText, isScalar]; exact isText)
    exact ⟨_, by rw [writeText, plain]; rfl, rfl⟩
  | boolean isBoolean _ =>
    obtain ⟨b, -, rfl⟩ := boolean_of_writeValue isBoolean written
    exact ⟨_, rfl, rfl⟩

/-- Items that are one element each are written one element after the other. -/
theorem children_of_writeItems {m : Member} {s : Shape}
    (single : ∀ {v c}, writeValue g m s v = .ok c → ∃ n, c = .child n ∧ n.tag? = some m.tag)
    {items : List Value} {c : Content} (written : writeItems g m s items = .ok c) :
    c.attributes = [] ∧
      List.Forall₂ (fun v n => writeValue g m s v = .ok (.child n) ∧ n.tag? = some m.tag)
        items c.children := by
  induction items generalizing c with
  | nil =>
    rw [writeItems_nil] at written
    cases written
    exact ⟨rfl, .nil⟩
  | cons v rest ih =>
    obtain ⟨first, others, firstWritten, othersWritten, rfl⟩ := writeItems_cons_eq_ok_iff.1 written
    obtain ⟨n, rfl, tag⟩ := single firstWritten
    obtain ⟨attributes, pairs⟩ := ih othersWritten
    exact ⟨attributes, .cons ⟨firstWritten, tag⟩ pairs⟩

/-! ## Owners -/

/-- An attribute that the member is written as. -/
def OwnsAttribute (g : Graph) (m : Member) (a : String × String) : Prop :=
  m.writesAttribute g = true ∧ a.1 = m.tag

/-- An element that the member is written as. -/
def OwnsChild (g : Graph) (m : Member) (n : Node) : Prop :=
  m.writesAttribute g = false ∧ n.tag? = some m.tag

/-- Content that a member wrote: it is an attribute, or elements, of the member's name. -/
structure OwnedBy (g : Graph) (m : Member) (c : Content) : Prop where
  attributes : ∀ a ∈ c.attributes, OwnsAttribute g m a
  children : ∀ n ∈ c.children, OwnsChild g m n
  once : (c.attributes.map (·.1)).Nodup

/-- Content without anything that the member could have written. -/
structure FreeOf (g : Graph) (m : Member) (c : Content) : Prop where
  attributes : ∀ a ∈ c.attributes, ¬ OwnsAttribute g m a
  children : ∀ n ∈ c.children, ¬ OwnsChild g m n

theorem ownedBy_empty (m : Member) : OwnedBy g m .empty := ⟨nofun, nofun, List.nodup_nil⟩

theorem ownedBy_children {m : Member} {c : Content} (element : m.writesAttribute g = false)
    (none : c.attributes = []) (tags : ∀ n ∈ c.children, n.tag? = some m.tag) : OwnedBy g m c := by
  constructor
  · rw [none]
    exact nofun
  · intro n member
    exact ⟨element, tags n member⟩
  · rw [none]
    exact List.nodup_nil

theorem ownedBy_child {m : Member} {n : Node} (element : m.writesAttribute g = false)
    (tag : n.tag? = some m.tag) : OwnedBy g m (.child n) :=
  ownedBy_children element rfl (List.forall_mem_singleton.2 tag)

theorem ownedBy_attribute {m : Member} (attr : m.writesAttribute g = true) (text : String) :
    OwnedBy g m ⟨[(m.tag, text)], []⟩ := by
  constructor
  · exact List.forall_mem_singleton.2 ⟨attr, rfl⟩
  · exact nofun
  · exact List.nodup_cons.2 ⟨List.not_mem_nil, List.nodup_nil⟩

/-- What a member wrote has nothing of the members that are apart from it. -/
theorem OwnedBy.freeOf {m m' : Member} {c : Content} (owned : OwnedBy g m' c)
    (apart : Apart g m m') : FreeOf g m c := by
  constructor
  · rintro a member ⟨attr, name⟩
    obtain ⟨attr', name'⟩ := owned.attributes a member
    exact apart (attr.trans attr'.symm) (name.symm.trans name')
  · rintro n member ⟨element, tag⟩
    obtain ⟨element', tag'⟩ := owned.children n member
    exact apart (element.trans element'.symm) (Option.some.inj (tag.symm.trans tag'))

theorem FreeOf.append {m : Member} {c d : Content} (hc : FreeOf g m c) (hd : FreeOf g m d) :
    FreeOf g m (c ++ d) := by
  constructor
  · rw [Content.attributes_append]
    exact List.forall_mem_append.2 ⟨hc.attributes, hd.attributes⟩
  · rw [Content.children_append]
    exact List.forall_mem_append.2 ⟨hc.children, hd.children⟩

/-- A list whose first part has a property and whose other part has not divides in one way. -/
theorem append_eq_append_of_property {α : Type} {P : α → Prop} {a b a' b' : List α}
    (same : a ++ b = a' ++ b') (ha : ∀ x ∈ a, P x) (ha' : ∀ x ∈ a', P x) (hb : ∀ x ∈ b, ¬ P x)
    (hb' : ∀ x ∈ b', ¬ P x) : a = a' ∧ b = b' := by
  induction a generalizing a' with
  | nil =>
    cases a' with
    | nil => exact ⟨rfl, same⟩
    | cons y rest =>
      rw [List.nil_append, List.cons_append] at same
      exact absurd (ha' y List.mem_cons_self) (hb y (same ▸ List.mem_cons_self))
  | cons x rest ih =>
    cases a' with
    | nil =>
      rw [List.nil_append, List.cons_append] at same
      exact absurd (ha x List.mem_cons_self) (hb' x (same ▸ List.mem_cons_self))
    | cons y rest' =>
      rw [List.cons_append, List.cons_append, List.cons.injEq] at same
      obtain ⟨firsts, others⟩ := ih same.2 (fun z member => ha z (List.mem_cons_of_mem x member))
        fun z member => ha' z (List.mem_cons_of_mem y member)
      exact ⟨by rw [same.1, firsts], others⟩

/-- What a member wrote can be told from what follows it. -/
theorem OwnedBy.split {m : Member} {c d c' d' : Content} (owned : OwnedBy g m c)
    (owned' : OwnedBy g m c') (free : FreeOf g m d) (free' : FreeOf g m d')
    (same : c ++ d = c' ++ d') : c = c' ∧ d = d' := by
  have attributes := congrArg Content.attributes same
  have children := congrArg Content.children same
  rw [Content.attributes_append, Content.attributes_append] at attributes
  rw [Content.children_append, Content.children_append] at children
  obtain ⟨ha, hb⟩ := append_eq_append_of_property attributes owned.attributes owned'.attributes
    free.attributes free'.attributes
  obtain ⟨hc, hd⟩ := append_eq_append_of_property children owned.children owned'.children
    free.children free'.children
  cases c; cases d; cases c'; cases d'
  cases ha; cases hb; cases hc; cases hd
  exact ⟨rfl, rfl⟩

/-! ## Members apart from each other -/

/-- The members that follow write nothing of a member that they are apart from. -/
theorem freeOf_of_writeMembers {m : Member} {fields : List (String × Value)}
    {members : List Member} (apart : ∀ m' ∈ members, Apart g m m')
    (owned : ∀ m' ∈ members, ∀ c, writeMember g fields m' = .ok c → OwnedBy g m' c) {c : Content}
    (written : writeMembers g fields members = .ok c) : FreeOf g m c := by
  induction members generalizing c with
  | nil =>
    rw [writeMembers_nil] at written
    cases written
    exact ⟨nofun, nofun⟩
  | cons m' rest ih =>
    obtain ⟨apartFirst, apartOthers⟩ := List.forall_mem_cons.1 apart
    obtain ⟨ownedFirst, ownedOthers⟩ := List.forall_mem_cons.1 owned
    obtain ⟨first, others, firstWritten, othersWritten, rfl⟩ :=
      writeMembers_cons_eq_ok_iff.1 written
    exact ((ownedFirst first firstWritten).freeOf apartFirst).append
      (ih apartOthers ownedOthers othersWritten)

/-- Members apart from each other that wrote the same together wrote the same each. -/
theorem writeMember_eq_of_writeMembers_eq {fields fields' : List (String × Value)}
    {members : List Member} (apart : members.Pairwise (Apart g))
    (owned : ∀ m ∈ members, ∀ c, writeMember g fields m = .ok c → OwnedBy g m c)
    (owned' : ∀ m ∈ members, ∀ c, writeMember g fields' m = .ok c → OwnedBy g m c) {c : Content}
    (written : writeMembers g fields members = .ok c)
    (written' : writeMembers g fields' members = .ok c) :
    ∀ m ∈ members, ∃ d, writeMember g fields m = .ok d ∧ writeMember g fields' m = .ok d := by
  induction members generalizing c with
  | nil =>
    intro m member
    cases member
  | cons m rest ih =>
    obtain ⟨apartFirst, apartOthers⟩ := List.pairwise_cons.1 apart
    obtain ⟨ownedFirst, ownedOthers⟩ := List.forall_mem_cons.1 owned
    obtain ⟨ownedFirst', ownedOthers'⟩ := List.forall_mem_cons.1 owned'
    obtain ⟨first, others, firstWritten, othersWritten, whole⟩ :=
      writeMembers_cons_eq_ok_iff.1 written
    obtain ⟨first', others', firstWritten', othersWritten', whole'⟩ :=
      writeMembers_cons_eq_ok_iff.1 written'
    have same : first ++ others = first' ++ others' := whole.symm.trans whole'
    -- The first member's part can be told from the rest, so both sides split at one place.
    have free := freeOf_of_writeMembers apartFirst ownedOthers othersWritten
    have free' := freeOf_of_writeMembers apartFirst ownedOthers' othersWritten'
    obtain ⟨rfl, rfl⟩ :=
      (ownedFirst first firstWritten).split (ownedFirst' first' firstWritten') free free' same
    intro m' member
    rcases List.mem_cons.1 member with rfl | member
    · exact ⟨first, firstWritten, firstWritten'⟩
    · exact ih apartOthers ownedOthers ownedOthers' othersWritten othersWritten' m' member

/-- Each attribute is that of a member, and no name comes twice. -/
theorem attributes_of_writeMembers {fields : List (String × Value)} {members : List Member}
    (apart : members.Pairwise (Apart g))
    (owned : ∀ m ∈ members, ∀ c, writeMember g fields m = .ok c → OwnedBy g m c) {c : Content}
    (written : writeMembers g fields members = .ok c) :
    (∀ a ∈ c.attributes, ∃ m ∈ members, OwnsAttribute g m a) ∧ (c.attributes.map (·.1)).Nodup := by
  induction members generalizing c with
  | nil =>
    rw [writeMembers_nil] at written
    cases written
    exact ⟨nofun, List.nodup_nil⟩
  | cons m rest ih =>
    obtain ⟨apartFirst, apartOthers⟩ := List.pairwise_cons.1 apart
    obtain ⟨ownedFirst, ownedOthers⟩ := List.forall_mem_cons.1 owned
    obtain ⟨first, others, firstWritten, othersWritten, rfl⟩ :=
      writeMembers_cons_eq_ok_iff.1 written
    have own := ownedFirst first firstWritten
    have free := freeOf_of_writeMembers apartFirst ownedOthers othersWritten
    obtain ⟨owners, once⟩ := ih apartOthers ownedOthers othersWritten
    constructor
    · intro a member
      rw [Content.attributes_append, List.mem_append] at member
      rcases member with member | member
      · exact ⟨m, List.mem_cons_self, own.attributes a member⟩
      · obtain ⟨m', listed, owns⟩ := owners a member
        exact ⟨m', List.mem_cons_of_mem m listed, owns⟩
    · rw [Content.attributes_append, List.map_append, List.nodup_append]
      refine ⟨own.once, once, ?_⟩
      intro name left name' right same
      obtain ⟨a, member, rfl⟩ := List.mem_map.1 left
      obtain ⟨b, member', rfl⟩ := List.mem_map.1 right
      obtain ⟨attr, tag⟩ := own.attributes a member
      exact free.attributes b member' ⟨attr, same ▸ tag⟩

/-! ## Members of a document -/

section

variable (legible : Legible g root)

include legible

/-- The items of a list are one element each. -/
theorem child_of_item {m item : Member} {s element : Shape} {flattened : Bool} {v : Value}
    {c : Content} (carried : Carries g root m s) (isList : s.kind = .list item flattened)
    (found : g.shapes.get? item.target = some element)
    (written : writeValue g (itemMember m item flattened) element v = .ok c) :
    ∃ n, c = .child n ∧ n.tag? = some (itemMember m item flattened).tag :=
  child_of_writeValue (legible.writable.form (carried.item isList found)) (legible.clear.items carried isList found)
    (fun _ => legible.not_attribute_of_item carried isList) written

theorem ownedBy_of_writeValue {m : Member} {s : Shape} {v : Value} {c : Content}
    (carried : Carries g root m s) (target : g.shapes.get? m.target = some s)
    (written : writeValue g m s v = .ok c) : OwnedBy g m c := by
  have attr : m.writesAttribute g = (m.asAttribute && s.isText) := by
    rw [Member.writesAttribute, target, Option.any_some]
  cases legible.writable.form carried with
  | struct isStruct =>
    obtain ⟨fields, content, -, -, rfl⟩ := struct_of_writeValue isStruct written
    refine ownedBy_child ?_ rfl
    rw [attr, Shape.isText, isStruct, Bool.and_false]
  | @list item element flattened isList found =>
    have isElement : m.writesAttribute g = false := by
      rw [attr, Shape.isText, isList, Bool.and_false]
    obtain ⟨items, content, -, below, rfl⟩ := list_of_writeValue isList found written
    cases flattened with
    | false => exact ownedBy_child isElement rfl
    | true =>
      obtain ⟨none, pairs⟩ := children_of_writeItems
        (child_of_item legible carried isList found) below
      refine ownedBy_children isElement none fun n member => ?_
      obtain ⟨v, -, -, tag⟩ := exists_of_mem_right pairs member
      exact tag
  | @text k isScalar isText =>
    obtain ⟨text, -, rfl⟩ := text_of_writeValue isScalar isText written
    have whole : s.isText = true := by rw [Shape.isText, isScalar]; exact isText
    rw [whole, Bool.and_true] at attr
    unfold writeText
    split
    · rename_i asAttribute
      exact ownedBy_attribute (attr.trans asAttribute) text
    · rename_i asElement
      exact ownedBy_child (attr.trans (Bool.not_eq_true _ ▸ asElement)) rfl
  | boolean isBoolean _ =>
    obtain ⟨b, -, rfl⟩ := boolean_of_writeValue isBoolean written
    refine ownedBy_child ?_ rfl
    rw [attr, Shape.isText, isBoolean]
    exact Bool.and_false _

/-- A member of a structure of the document writes content of its own. -/
theorem ownedBy_of_writeMember {f : Fields} (held : Holds g root f) {m : Member}
    (member : m ∈ f.bodyMembers) {fields : List (String × Value)} {c : Content}
    (written : writeMember g fields m = .ok c) : OwnedBy g m c := by
  obtain ⟨s, target⟩ := legible.writable.target held m member
  cases found : fields.lookup m.label with
  | some v =>
    rw [writeMember_of_some target found] at written
    exact ownedBy_of_writeValue legible (held.member member target) target written
  | none =>
    rw [writeMember_of_none target found] at written
    unfold writeAbsent at written
    split at written
    · cases written
      exact ownedBy_empty m
    · rename_i item isList
      cases written
      refine ownedBy_child ?_ rfl
      rw [Member.writesAttribute, target, Option.any_some, Shape.isText, isList]
      exact Bool.and_false _
    · split at written
      · cases written
      · cases written
        exact ownedBy_empty m

/-- Two structures with the same content have the same content member by member. -/
theorem members_agree {f : Fields} (held : Holds g root f) {fields fields' : List (String × Value)}
    {c : Content} (written : writeMembers g fields f.bodyMembers = .ok c)
    (written' : writeMembers g fields' f.bodyMembers = .ok c) :
    ∀ m ∈ f.bodyMembers, ∃ d, writeMember g fields m = .ok d ∧ writeMember g fields' m = .ok d :=
  writeMember_eq_of_writeMembers_eq (legible.clear.apart held)
    (fun _ member _ => ownedBy_of_writeMember legible held member)
    (fun _ member _ => ownedBy_of_writeMember legible held member) written written'

/-- The attributes of an element are its namespace and those of its members, nothing collected. -/
theorem collect_attributes {m : Member} {s : Shape} {f : Fields} (carried : Carries g root m s)
    (isStruct : s.kind = .struct f) {fields : List (String × Value)} {c : Content}
    (written : writeMembers g fields f.bodyMembers = .ok c) :
    collect (((namespaceFor m s).toList.map fun n => (n.name, n.uri)) ++ c.attributes) =
      ((namespaceFor m s).toList.map fun n => (n.name, n.uri)) ++ c.attributes := by
  have held := Holds.carried carried isStruct
  obtain ⟨owners, once⟩ := attributes_of_writeMembers (legible.clear.apart held)
    (fun _ member _ => ownedBy_of_writeMember legible held member) written
  apply collect_of_nodup
  cases declared : namespaceFor m s with
  | none => exact once
  | some d =>
    refine List.nodup_cons.2 ⟨fun member => ?_, once⟩
    obtain ⟨a, listed, same⟩ := List.mem_map.1 member
    obtain ⟨m', member', attr, tag⟩ := owners a listed
    exact legible.clear.namespaces carried isStruct declared m' member' attr (tag.symm.trans same)

/-- An element determines its content. -/
theorem content_of_elementOf {m : Member} {s : Shape} {f : Fields} (carried : Carries g root m s)
    (isStruct : s.kind = .struct f) {fields fields' : List (String × Value)} {c d : Content}
    (written : writeMembers g fields f.bodyMembers = .ok c)
    (written' : writeMembers g fields' f.bodyMembers = .ok d)
    (same : elementOf m.tag (namespaceFor m s) c = elementOf m.tag (namespaceFor m s) d) :
    c = d := by
  rw [elementOf, elementOf, collect_attributes legible carried isStruct written,
    collect_attributes legible carried isStruct written', Node.element.injEq] at same
  obtain ⟨-, attributes, children⟩ := same
  have attributes := List.append_cancel_left attributes
  cases c; cases d
  cases attributes; cases children
  rfl

end

end WireBody.Direct
