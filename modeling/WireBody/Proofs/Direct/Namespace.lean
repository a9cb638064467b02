import WireBody.Proofs.Direct.Items

/-!
# Declared namespaces

A structure inside a document is one element, and the namespace that its member or its shape
declares is set on it before anything else.  It therefore is the first attribute, and the only one
of its name.  But setting an attribute again replaces its value where it stands: if a member of the
structure is an attribute of the very name that declares the namespace, then its text takes the
place of the URI.

Main definitions: `Stands` says where a value stands in a document, and `Declares` what the element
of a structure has to look like.  Main statement: `namespace_of_serialize`.
-/

set_option autoImplicit false

namespace WireBody.Direct

open WireBody.Compile
open WireBody.Program
open WireBody.Request
open WireBody.Run
open WireBody.Service
open WireBody.Xml

/-! ## Where values stand -/

/-- In a structure with the members of `root` and the fields `top`, the value `v` of shape `s`
stands for the member `m`: it is a field that travels in the body, such a field of a structure that
stands somewhere, or an item of a list that does. -/
inductive Stands (g : Graph) (root : Fields) (top : List (String × Value)) :
    Member → Shape → Value → Prop
  | field {m : Member} {s : Shape} {v : Value} :
      m ∈ root.bodyMembers → g.shapes.get? m.target = some s → top.lookup m.label = some v →
      Stands g root top m s v
  | inside {m m' : Member} {s s' : Shape} {f : Fields} {fields : List (String × Value)}
      {v : Value} :
      Stands g root top m s (.struct fields) → s.kind = .struct f → m' ∈ f.bodyMembers →
      g.shapes.get? m'.target = some s' → fields.lookup m'.label = some v →
      Stands g root top m' s' v
  | item {m item : Member} {s element : Shape} {flattened : Bool} {items : List Value}
      {v : Value} :
      Stands g root top m s (.list items) → s.kind = .list item flattened →
      g.shapes.get? item.target = some element → v ∈ items →
      Stands g root top (itemMember m item flattened) element v

variable {g : Graph}

/-- What a member writes is part of what its structure writes. -/
theorem children_of_member {fields : List (String × Value)} {members : List Member} {m : Member}
    (member : m ∈ members) {c : Content} (written : writeMembers g fields members = .ok c) :
    ∃ own, writeMember g fields m = .ok own ∧ own.children ⊆ c.children := by
  obtain ⟨before, after, rfl⟩ := List.append_of_mem member
  obtain ⟨first, own, last, -, ownWritten, -, rfl⟩ := split_of_writeMembers written
  refine ⟨own, ownWritten, fun n listed => ?_⟩
  rw [Content.children_append, Content.children_append]
  exact List.mem_append_left _ (List.mem_append_right _ listed)

/-- What an item writes is part of what its list writes. -/
theorem children_of_item {m : Member} {s : Shape} {items : List Value} {v : Value}
    (listed : v ∈ items) {c : Content} (written : writeItems g m s items = .ok c) :
    ∃ own, writeValue g m s v = .ok own ∧ own.children ⊆ c.children := by
  induction items generalizing c with
  | nil => cases listed
  | cons w rest ih =>
    obtain ⟨first, others, firstWritten, othersWritten, rfl⟩ := writeItems_cons_eq_ok_iff.1 written
    rcases List.mem_cons.1 listed with rfl | listed
    · exact ⟨first, firstWritten, List.subset_append_left _ _⟩
    · obtain ⟨own, ownWritten, below⟩ := ih listed othersWritten
      exact ⟨own, ownWritten, fun n member => List.mem_append_right _ (below member)⟩

/-- In a document that was written every value that stands somewhere was written, and its elements
are there. -/
theorem written_of_stands {root : Fields} {top : List (String × Value)} {whole : Content}
    (written : writeMembers g top root.bodyMembers = .ok whole) {m : Member} {s : Shape} {v : Value}
    (stands : Stands g root top m s v) :
    ∃ c, writeValue g m s v = .ok c ∧ ∀ n ∈ c.children, n.Occurs whole.children := by
  -- Outermost value first: what is written around a value contains what is written for it.
  induction stands with
  | field member target found =>
    obtain ⟨own, ownWritten, below⟩ := children_of_member member written
    rw [writeMember_of_some target found] at ownWritten
    exact ⟨own, ownWritten, fun n listed => .here (below listed)⟩
  | inside _ isStruct member target found ih =>
    obtain ⟨c, outer, occurs⟩ := ih
    obtain ⟨fields, content, same, inner, rfl⟩ := struct_of_writeValue isStruct outer
    cases same
    obtain ⟨own, ownWritten, below⟩ := children_of_member member inner
    rw [writeMember_of_some target found] at ownWritten
    refine ⟨own, ownWritten, fun n listed => ?_⟩
    exact Node.Occurs.within (.here (below listed)) (occurs _ (List.mem_singleton_self _))
  | @item m item s element flattened items v _ isList found listed ih =>
    obtain ⟨c, outer, occurs⟩ := ih
    obtain ⟨items', content, same, inner, rfl⟩ := list_of_writeValue isList found outer
    cases same
    obtain ⟨own, ownWritten, below⟩ := children_of_item listed inner
    refine ⟨own, ownWritten, fun n member => ?_⟩
    -- A flattened list has no element of its own, so its items stand where the list does.
    cases flattened with
    | true => exact occurs n (below member)
    | false =>
      exact Node.Occurs.within (.here (below member)) (occurs _ (List.mem_singleton_self _))

/-! ## Attributes -/

/-- An attribute of this name is set by a value of shape `s` that stands for `m`: it is a text, and
only flattened lists lead to it. -/
def SetBy (g : Graph) (name : String) (m : Member) (s : Shape) : Prop :=
  m.asAttribute = true ∧ m.tag = name ∧ ∃ e, LeadsTo g s true e ∧ e.isText = true

/-- A body member of a structure sets an attribute of this name. -/
def HasAttribute (g : Graph) (f : Fields) (name : String) : Prop :=
  ∃ m ∈ f.bodyMembers, ∃ s, g.shapes.get? m.target = some s ∧ SetBy g name m s

/-- Each item of a flattened list sets the attribute again. -/
theorem setBy_of_writeItems {m : Member} {element : Shape} {items : List Value}
    (each : ∀ v ∈ items, ∀ c, writeValue g m element v = .ok c →
      ∀ a ∈ c.attributes, SetBy g a.1 m element) {c : Content}
    (written : writeItems g m element items = .ok c) :
    ∀ a ∈ c.attributes, SetBy g a.1 m element := by
  induction items generalizing c with
  | nil =>
    rw [writeItems_nil] at written
    cases written
    exact nofun
  | cons v rest ih =>
    obtain ⟨own, later⟩ := List.forall_mem_cons.1 each
    obtain ⟨first, others, firstWritten, othersWritten, rfl⟩ := writeItems_cons_eq_ok_iff.1 written
    exact List.forall_mem_append.2 ⟨own first firstWritten, ih later othersWritten⟩

theorem setBy_of_writeText {m : Member} {s : Shape} {k : Scalar} (isScalar : s.kind = .scalar k)
    (isText : k.isText = true) (text : String) :
    ∀ a ∈ (writeText m text).attributes, SetBy g a.1 m s := by
  have leads : LeadsTo g s true s := .here (by rw [Shape.isList, isScalar])
  unfold writeText
  split
  · rename_i attr
    exact List.forall_mem_singleton.2
      ⟨attr, rfl, s, leads, Shape.isText_iff.2 ⟨k, isScalar, isText⟩⟩
  · intro a member
    cases member

theorem setBy_of_writeValue (v : Value) {m : Member} {s : Shape} {c : Content}
    (written : writeValue g m s v = .ok c) : ∀ a ∈ c.attributes, SetBy g a.1 m s := by
  induction v using Value.induction_on_parts generalizing m s c with
  | whole v ih =>
    have none {c : Content} (empty : c.attributes = []) :
        ∀ a ∈ c.attributes, SetBy g a.1 m s := by
      intro a member
      rw [empty] at member
      cases member
    cases kind : s.kind with
    | struct f =>
      obtain ⟨fields, content, -, -, rfl⟩ := struct_of_writeValue kind written
      exact none rfl
    | list item flattened =>
      cases found : g.shapes.get? item.target with
      | none =>
        rw [writeValue] at written
        simp only [kind, found] at written
        split at written
        · cases written
          exact none rfl
        · cases written
      | some element =>
        obtain ⟨items, content, rfl, below, rfl⟩ := list_of_writeValue kind found written
        cases flattened with
        | false => exact none rfl
        | true =>
          have each : ∀ a ∈ content.attributes, SetBy g a.1 m element :=
            setBy_of_writeItems (fun w listed _ inner => ih w (.item listed) inner) below
          intro a member
          obtain ⟨attr, tag, e, leads, isText⟩ := each a member
          exact ⟨attr, tag, e, .item kind found leads, isText⟩
    | map key value flattened =>
      rw [writeValue, kind] at written
      cases written
      exact none rfl
    | scalar k =>
      cases isText : k.isText with
      | true =>
        obtain ⟨text, -, rfl⟩ := text_of_writeValue kind isText written
        exact setBy_of_writeText kind isText text
      | false =>
        by_cases isBoolean : k = .boolean
        · subst isBoolean
          obtain ⟨b, -, rfl⟩ := boolean_of_writeValue kind written
          exact none rfl
        · rw [writeValue, kind] at written
          have nothing : c = .empty := by
            cases k <;> simp_all [Scalar.isText]
          rw [nothing]
          exact none rfl

/-- An absent list may be an element, and nothing else is written for what is absent. -/
theorem attributes_of_writeAbsent {m : Member} {s : Shape} {c : Content}
    (written : writeAbsent m s = .ok c) : c.attributes = [] := by
  unfold writeAbsent at written
  split at written
  · cases written
    rfl
  · cases written
    rfl
  · split at written
    · cases written
    · cases written
      rfl

theorem setBy_of_writeMember {fields : List (String × Value)} {m : Member} {c : Content}
    (written : writeMember g fields m = .ok c) :
    ∀ a ∈ c.attributes, ∃ s, g.shapes.get? m.target = some s ∧ SetBy g a.1 m s := by
  intro a member
  cases target : g.shapes.get? m.target with
  | none =>
    rw [writeMember, target] at written
    cases written
    cases member
  | some s =>
    refine ⟨s, rfl, ?_⟩
    cases found : fields.lookup m.label with
    | none =>
      rw [writeMember_of_none target found] at written
      rw [attributes_of_writeAbsent written] at member
      cases member
    | some v =>
      rw [writeMember_of_some target found] at written
      exact setBy_of_writeValue v written a member

/-- The attributes that a structure writes are those of its members. -/
theorem hasAttribute_of_writeMembers {fields : List (String × Value)} {f : Fields} {c : Content}
    (written : writeMembers g fields f.bodyMembers = .ok c) :
    ∀ a ∈ c.attributes, HasAttribute g f a.1 := by
  unfold HasAttribute
  generalize f.bodyMembers = members at written ⊢
  induction members generalizing c with
  | nil =>
    rw [writeMembers_nil] at written
    cases written
    exact nofun
  | cons m rest ih =>
    obtain ⟨first, others, firstWritten, othersWritten, rfl⟩ :=
      writeMembers_cons_eq_ok_iff.1 written
    refine List.forall_mem_append.2 ⟨fun a member => ?_, fun a member => ?_⟩
    · exact ⟨m, List.mem_cons_self, setBy_of_writeMember firstWritten a member⟩
    · obtain ⟨m', listed, own⟩ := ih othersWritten a member
      exact ⟨m', List.mem_cons_of_mem m listed, own⟩

/-! ## Declarations -/

/-- The first attribute of an element declares a namespace with this URI, and no other attribute has
its name. -/
inductive Declares (ns : XmlNamespace) (uri : String) : Node → Prop
  | first {tag : String} {others : List (String × String)} {children : Forest} :
      (declarationOf ns).name ∉ others.map (·.1) →
      Declares ns uri (.element tag (((declarationOf ns).name, uri) :: others) children)

theorem Declares.head {ns : XmlNamespace} {uri tag : String} {attributes : List (String × String)}
    {children : Forest} (declares : Declares ns uri (.element tag attributes children)) :
    attributes.head? = some ((declarationOf ns).name, uri) := by
  cases declares
  rfl

/-- The namespace of an element stands first, with the text of the last attribute that has its name,
if there is any. -/
theorem declares_elementOf (tag : String) (ns : XmlNamespace) (content : Content) :
    Declares ns ((lastOf content.attributes (declarationOf ns).name).getD ns.uri)
      (elementOf tag (some (declarationOf ns)) content) := by
  obtain ⟨others, collected, once⟩ :=
    collect_cons ((declarationOf ns).name, (declarationOf ns).uri) content.attributes
  rw [elementOf, Option.toList_some, List.map_cons, List.map_nil, List.singleton_append, collected]
  exact .first once

/-- Wherever a structure stands in a request, its element is in the document that is sent, and if its
member or else its shape declares a namespace, then this is declared by the first attribute of the
element and by no other.  The URI is the declared one, unless a body member of the structure sets an
attribute of the same name: then it is what that attribute was set to last. -/
theorem namespace_of_serialize {o : Operation} {p : Program} (compiled : program g o = .ok p)
    {declared : Bool} {request : Option Value} {bytes : ByteArray}
    (sent : p.serialize declared request = .ok bytes) {root : Fields}
    {top : List (String × Value)} (rootIs : RootIs g p request root top) :
    ∃ forest, p.run request = .ok (.document forest) ∧
      bytes = (writeDocument declared forest).toUTF8 ∧
      ∀ m s f fields, Stands g root top m s (.struct fields) → s.kind = .struct f →
        ∀ ns, m.xmlNamespace.or s.xmlNamespace = some ns →
          ∃ n content, writeValue g m s (.struct fields) = .ok (.child n) ∧ n.Occurs forest ∧
            writeMembers g fields f.bodyMembers = .ok content ∧
            Declares ns ((lastOf content.attributes (declarationOf ns).name).getD ns.uri) n ∧
            (¬ HasAttribute g f (declarationOf ns).name → Declares ns ns.uri n) := by
  obtain ⟨body, ran, rfl⟩ := map_eq_ok_iff.1 sent
  obtain ⟨whole, written, rfl⟩ := map_eq_ok_iff.1 ((run_of_rootIs compiled rootIs).symm.trans ran)
  refine ⟨whole.children, ran, rfl, fun m s f fields stands isStruct ns given => ?_⟩
  obtain ⟨c, own, occurs⟩ := written_of_stands written stands
  obtain ⟨fields', content, same, inner, rfl⟩ := struct_of_writeValue isStruct own
  cases same
  have first := declares_elementOf m.tag ns content
  have declaration : namespaceFor m s = some (declarationOf ns) :=
    namespaceFor_eq_some_iff.2 ⟨ns, Option.or_eq_some_iff.1 given, rfl⟩
  rw [declaration] at own occurs
  refine ⟨_, content, own, occurs _ (List.mem_singleton_self _), inner, first, fun plain => ?_⟩
  have absent : lastOf content.attributes (declarationOf ns).name = none :=
    lastOf_eq_none fun a member same =>
      plain (same ▸ hasAttribute_of_writeMembers inner a member)
  rwa [absent] at first

/-- The request for a folder with two folders in it. -/
def nestedRequest : List (String × Value) := [("Root", .struct nestedFields)]

/-- A folder in a folder stands for the member that points to the list of them, and its element
declares the namespace of folders. -/
theorem namespace_of_serialize_folder :
    RootIs folderGraph folderProgram (some (.struct nestedRequest)) putFolderFields nestedRequest ∧
      Stands folderGraph putFolderFields nestedRequest
        ⟨some "Inner", "Folders", some "Folder", .body, false, false, none, false, false⟩ folderShape
        (.struct [("Owner", .text "y")]) ∧
      ∃ n, n.Occurs [elementOf "Root" (some ⟨"xmlns", "urn:folders"⟩) nestedContent] ∧
        Declares ⟨"urn:folders", none⟩ "urn:folders" n := by
  have ran : folderProgram.run (some (.struct nestedRequest)) =
      .ok (.document [elementOf "Root" (some ⟨"xmlns", "urn:folders"⟩) nestedContent]) := by
    cbv
  have rootIs : RootIs folderGraph folderProgram (some (.struct nestedRequest)) putFolderFields
      nestedRequest := .document rfl rfl rfl rfl rfl
  have outer : Stands folderGraph putFolderFields nestedRequest
      ⟨some "Root", "Folder", none, .body, true, false, none, false, false⟩ folderShape
      (.struct nestedFields) := .field (.head _) rfl rfl
  have inner : Stands folderGraph putFolderFields nestedRequest
      ⟨some "Inner", "Folders", some "Folder", .body, false, false, none, false, false⟩ folderShape
      (.struct [("Owner", .text "y")]) :=
    (outer.inside rfl (.tail _ (.tail _ (.head _))) rfl rfl).item rfl rfl (.head _)
  have plain : ¬ HasAttribute folderGraph folderFields "xmlns" := by
    rintro ⟨m, member, s, -, attr, tag, -⟩
    have others : ∀ m ∈ folderFields.bodyMembers, m.asAttribute = true → m.tag ≠ "xmlns" := by
      decide
    exact others m member attr tag
  have sent : folderProgram.serialize true (some (.struct nestedRequest)) =
      .ok (Body.bytes true (.document
        [elementOf "Root" (some ⟨"xmlns", "urn:folders"⟩) nestedContent])) := by
    rw [Program.serialize, ran]
    rfl
  obtain ⟨forest, ran', -, declares⟩ := namespace_of_serialize program_putFolder sent rootIs
  cases ran.symm.trans ran'
  obtain ⟨n, content, -, occurs, -, -, declared⟩ := declares _ _ _ _ inner rfl _ rfl
  exact ⟨rootIs, inner, n, occurs, declared plain⟩

/-! ## A namespace that is replaced -/

/-- The description of one operation, which puts a configuration.  It declares a namespace, and it
has a member that is an attribute of the name that declares the namespace. -/
def configDescription : Json :=
  .object [
    ("operations", .object [
      ("PutConfig", .object [("input", .object [("shape", .string "Request")])])]),
    ("shapes", .object [
      ("Name", .object [("type", .string "string")]),
      ("Config", .object [
        ("type", .string "structure"), ("xmlNamespace", .object [("uri", .string "urn:test")]),
        ("members", .object [
          ("Ns", .object [
            ("shape", .string "Name"), ("locationName", .string "xmlns"),
            ("xmlAttribute", .bool true)])])]),
      ("Request", .object [
        ("type", .string "structure"),
        ("members", .object [("Config", .object [("shape", .string "Config")])])])])]

/-- The members of a configuration. -/
def configFields : Fields :=
  ⟨[⟨some "Ns", "Name", some "xmlns", .body, false, true, none, false, false⟩], none⟩

/-- The shape of a configuration. -/
def configShape : Shape := ⟨"Config", .struct configFields, some ⟨"urn:test", none⟩, false⟩

/-- The member of a request that points to a configuration. -/
def configMember : Member :=
  ⟨some "Config", "Config", none, .body, false, false, none, false, false⟩

/-- The operation that puts a configuration. -/
def putConfig : Operation := ⟨"PutConfig", some "Request"⟩

/-- The graph of the description. -/
def configGraph : Graph :=
  Graph.assemble .none
    [⟨"Name", .scalar .string, none, false⟩, configShape,
     ⟨"Request", .struct ⟨[configMember], none⟩, none, false⟩]
    [putConfig]

/-- The program of the operation that puts a configuration. -/
def configProgram : Program :=
  ⟨"PutConfig", .document "Request" none,
    .ofList [("Config", ⟨"Config", [.ifPresent "Ns" [.attr "xmlns" .present]]⟩),
      ("Request", ⟨"Request",
        [.ifPresent "Config" [.struct "Config" (some ⟨"xmlns", "urn:test"⟩) "Config" .present]]⟩)]⟩

/-- A request whose configuration gives that attribute. -/
def configRequest : List (String × Value) := [("Config", .struct [("Ns", .text "urn:other")])]

/-- The element of the configuration does not declare the namespace of its shape. -/
theorem config_not_declared :
    Graph.load configDescription = .ok configGraph ∧ configGraph.check = .ok () ∧
    program configGraph putConfig = .ok configProgram ∧
    configProgram.run (some (.struct configRequest)) =
      .ok (.document [.element "Config" [("xmlns", "urn:other")] []]) ∧
    RootIs configGraph configProgram (some (.struct configRequest)) ⟨[configMember], none⟩
      configRequest ∧
    Stands configGraph ⟨[configMember], none⟩ configRequest configMember configShape
      (.struct [("Ns", .text "urn:other")]) ∧
    configMember.xmlNamespace.or configShape.xmlNamespace = some ⟨"urn:test", none⟩ ∧
    writeValue configGraph configMember configShape (.struct [("Ns", .text "urn:other")]) =
      .ok (.child (.element "Config" [("xmlns", "urn:other")] [])) ∧
    ¬ Declares ⟨"urn:test", none⟩ "urn:test" (.element "Config" [("xmlns", "urn:other")] []) := by
  refine ⟨rfl, rfl, by cbv, by cbv, .document rfl rfl rfl rfl rfl, .field (.head _) rfl rfl, rfl, by cbv,
    ?_⟩
  intro declares
  have first := declares.head
  revert first
  decide

end WireBody.Direct
