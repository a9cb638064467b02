import WireBody.Proofs.Service.Readings
import WireBody.Proofs.Service.Sound

/-!
# The graph of a text

What a text that is taken as a description says of the graph that it gives.  Every shape is what the
last value of its key says, by the type that this value gives; every operation is what the last key
of its name says; and everything else is as the steps that use the graph expect it.

Main definitions: `ShapeOf` says what shape a document is, and `Described` what graph a table of
shapes and a table of operations are.  Main statement: `described_of_ofText`.
-/

set_option autoImplicit false

namespace WireBody.Service

/-! ## What a document gives -/

/-- The type of a shape. -/
def GivesType (d : Json) (type : String) : Prop := d.field ["type"] "type" = some (.string type)

/-- The fields of a structure that say what its members are. -/
structure Declares (field : String → Option Json) (entries : List (String × Json))
    (required : List String) (payload : Option String) : Prop where
  members : GivesEntries (field "members") entries
  required : GivesTexts (field "required") required
  payload : GivesText (field "payload") payload

/-- The members of a structure are those declared. -/
structure MembersOf (entries : List (String × Json)) (required : List String)
    (payload : Option String) (f : Fields) : Prop where
  /-- They are named as the keys are, in the order in which these first come. -/
  names : f.members.map (·.name) = (entries.map (·.1)).eraseDups.map some
  declared : f.payload = payload
  /-- Each is what the last value of its key says, required if it is listed and the payload if it is
  named. -/
  each : ∀ m ∈ f.members, ∀ name, m.name = some name →
    (m.required = true ↔ name ∈ required) ∧
    (m.payload = true ↔ payload = some name) ∧
    ∃ v, lastOf entries name = some v ∧ MemberOf v m

/-- A member that belongs to no structure: it has no name, and is neither required nor a payload. -/
def GivesElement (v : Option Json) (m : Member) : Prop := m.Bare ∧ ∃ d, v = some d ∧ MemberOf d m

section

open Description

/-- A shape, whatever its name, is what its document says.  The type that this gives decides which
fields it has, and a scalar alone can be streamed. -/
inductive ShapeOf (d : Json) : Shape → Prop
  | struct {name : String} {f : Fields} {ns : Option XmlNamespace} {entries : List (String × Json)}
      {required : List String} {payload : Option String} :
      GivesType d "structure" →
      Declares (d.field ("type" :: structureFields)) entries required payload →
      MembersOf entries required payload f →
      GivesOptional NamespaceOf (d.field ("type" :: structureFields) "xmlNamespace") ns →
      ShapeOf d ⟨name, .struct f, ns, false⟩
  | list {name : String} {item : Member} {flattened : Bool} {ns : Option XmlNamespace} :
      GivesType d "list" →
      GivesElement (d.field ("type" :: listFields) "member") item →
      GivesFlag (d.field ("type" :: listFields) "flattened") flattened →
      GivesOptional NamespaceOf (d.field ("type" :: listFields) "xmlNamespace") ns →
      ShapeOf d ⟨name, .list item flattened, ns, false⟩
  | map {name : String} {key value : Member} {flattened : Bool} {ns : Option XmlNamespace} :
      GivesType d "map" →
      GivesElement (d.field ("type" :: mapFields) "key") key →
      GivesElement (d.field ("type" :: mapFields) "value") value →
      GivesFlag (d.field ("type" :: mapFields) "flattened") flattened →
      GivesOptional NamespaceOf (d.field ("type" :: mapFields) "xmlNamespace") ns →
      ShapeOf d ⟨name, .map key value flattened, ns, false⟩
  | scalar {name : String} {k : Scalar} {streaming : Bool} {ns : Option XmlNamespace} :
      GivesType d k.name →
      GivesFlag (d.field ("type" :: scalarFields) "streaming") streaming →
      GivesOptional NamespaceOf (d.field ("type" :: scalarFields) "xmlNamespace") ns →
      ShapeOf d ⟨name, .scalar k, ns, streaming⟩

end

/-- An operation is what the last key says that gives its name.  A key that is repeated counts where
it first comes, and says what its last value is. -/
def LastNamed (entries : List (String × Json)) (o : Operation) : Prop :=
  ∃ before key after d, (entries.map (·.1)).eraseDups = before ++ key :: after ∧
    lastOf entries key = some d ∧ OperationOf key d o ∧
    ∀ later ∈ after, ∀ v, lastOf entries later = some v → ¬ NamesOperation later v o.name

/-- The items of the list `s` are of the shape `t`. -/
def HasItems (g : Graph) (s t : Shape) : Prop :=
  ∃ item flattened, s.kind = .list item flattened ∧ g.shapes.get? item.target = some t

/-- A graph is what the shapes and operations of a document say. -/
structure Described (g : Graph) (shapes operations : List (String × Json)) : Prop where
  checked : g.check = .ok ()
  /-- A shape has the name that it is stored under, and is what the last value of this key says. -/
  shape : ∀ {n : String} {s : Shape}, g.shapes.get? n = some s →
    s.name = n ∧ ∃ d, lastOf shapes n = some d ∧ ShapeOf d s
  /-- No shape is left out. -/
  stored : ∀ n ∈ shapes.map (·.1), ∃ s, g.shapes.get? n = some s
  /-- An operation is stored if it is what the last key of its name says, and under this name. -/
  operation : ∀ {n : String} {o : Operation}, g.operations.get? n = some o ↔
    o.name = n ∧ LastNamed operations o
  /-- Each key names an operation that is stored. -/
  named : ∀ key ∈ operations.map (·.1), ∃ d n o, lastOf operations key = some d ∧
    NamesOperation key d n ∧ g.operations.get? n = some o
  /-- A payload that is declared is a member. -/
  payload : ∀ {n : String} {s : Shape} {f : Fields} {p : String}, g.shapes.get? n = some s →
    s.kind = .struct f → f.payload = some p → ∃ m ∈ f.members, m.name = some p
  /-- Lists inside one another come to an end. -/
  finite : ∀ (n : String) (c : Nat → Shape), g.shapes.get? n = some (c 0) →
    ¬ ∀ i, HasItems g (c i) (c (i + 1))

/-! ## Reading shapes -/

namespace Description

/-- The name of a type. -/
def ShapeType.name : ShapeType → String
  | .struct => "structure"
  | .list => "list"
  | .map => "map"
  | .scalar k => k.name

theorem ShapeType.name_of_ofName? {n : String} {type : ShapeType}
    (found : ShapeType.ofName? n = some type) : type.name = n := by
  unfold ShapeType.ofName? at found
  split at found
  · rename_i same
    cases found
    exact same.symm
  split at found
  · rename_i same
    cases found
    exact same.symm
  split at found
  · rename_i same
    cases found
    exact same.symm
  obtain ⟨k, scalar, rfl⟩ := Option.map_eq_some_iff.1 found
  exact Scalar.name_of_ofName? scalar

variable {names : List String} {field name : String} {j body : Json} {r : Record} {s : Shape}

/-- The members that a structure declares are those of its table, each under its key. -/
theorem membersOf_of_table {entries : List (String × Json)} {table : List (String × Member)}
    (read : Json.asTableOf (fun _ => member) (.object entries) = .ok table)
    (required : List String) (payload : Option String) :
    MembersOf entries required payload
      ⟨table.map fun e => declare required payload e.1 e.2, payload⟩ := by
  constructor
  · rw [← names_of_asTableOf read, List.map_map, List.map_map]
    rfl
  · rfl
  · intro m listed name named
    obtain ⟨e, entry, rfl⟩ := List.mem_map.1 listed
    cases named
    obtain ⟨v, last, taken⟩ := lastOf_of_asTableOf read entry
    refine ⟨by simp [declare], by simp [declare], v, last, ?_⟩
    -- What a structure adds to a member is not said by its document.
    obtain ⟨-, target, locationName, location, xmlAttribute, xmlNamespace, streaming⟩ :=
      memberOf_of_member taken
    exact ⟨target, locationName, location, xmlAttribute, xmlNamespace, streaming⟩

theorem element_of_needed {m : Member} (read : Record.ofJson names j = .ok r)
    (known : field ∈ names) (given : r.needed field member = .ok m) :
    GivesElement (j.field names field) m := by
  obtain ⟨v, found, taken⟩ := Record.field_of_needed read known given
  obtain ⟨bare, isMember⟩ := memberOf_of_member taken
  exact ⟨bare, v, found, isMember⟩

section

-- The type stands before the other fields.
variable (same : ∀ names field, field ≠ "type" →
  body.field names field = j.field ("type" :: names) field)

include same

theorem shapeOf_of_structureShape (typed : GivesType j "structure")
    (read : structureShape name body = .ok s) : s.name = name ∧ ShapeOf j s := by
  unfold structureShape at read
  obtain ⟨r, record, read⟩ := bind_eq_ok_iff.1 read
  obtain ⟨members, membersRead, read⟩ := bind_eq_ok_iff.1 read
  obtain ⟨required, requiredRead, read⟩ := bind_eq_ok_iff.1 read
  obtain ⟨payload, payloadRead, read⟩ := bind_eq_ok_iff.1 read
  obtain ⟨xmlNamespace, namespaceRead, read⟩ := bind_eq_ok_iff.1 read
  cases read
  obtain ⟨entries, given, table⟩ := entries_of_defaulted record (by decide) membersRead
  have listed := texts_of_defaulted record (by decide) requiredRead
  have singled := given_of_optional string_of_asString record (by decide) payloadRead
  have ns := given_of_optional namespaceOf_of_xmlNamespace record (by decide) namespaceRead
  rw [same _ _ (by decide)] at given listed singled ns
  exact ⟨rfl, .struct typed ⟨given, listed, singled⟩ (membersOf_of_table table required payload) ns⟩

theorem shapeOf_of_listShape (typed : GivesType j "list") (read : listShape name body = .ok s) :
    s.name = name ∧ ShapeOf j s := by
  unfold listShape at read
  obtain ⟨r, record, read⟩ := bind_eq_ok_iff.1 read
  obtain ⟨item, itemRead, read⟩ := bind_eq_ok_iff.1 read
  obtain ⟨flattened, flattenedRead, read⟩ := bind_eq_ok_iff.1 read
  obtain ⟨xmlNamespace, namespaceRead, read⟩ := bind_eq_ok_iff.1 read
  cases read
  have element := element_of_needed record (by decide) itemRead
  have flat := flag_of_defaulted record (by decide) flattenedRead
  have ns := given_of_optional namespaceOf_of_xmlNamespace record (by decide) namespaceRead
  rw [same _ _ (by decide)] at element flat ns
  exact ⟨rfl, .list typed element flat ns⟩

theorem shapeOf_of_mapShape (typed : GivesType j "map") (read : mapShape name body = .ok s) :
    s.name = name ∧ ShapeOf j s := by
  unfold mapShape at read
  obtain ⟨r, record, read⟩ := bind_eq_ok_iff.1 read
  obtain ⟨key, keyRead, read⟩ := bind_eq_ok_iff.1 read
  obtain ⟨value, valueRead, read⟩ := bind_eq_ok_iff.1 read
  obtain ⟨flattened, flattenedRead, read⟩ := bind_eq_ok_iff.1 read
  obtain ⟨xmlNamespace, namespaceRead, read⟩ := bind_eq_ok_iff.1 read
  cases read
  have keys := element_of_needed record (by decide) keyRead
  have values := element_of_needed record (by decide) valueRead
  have flat := flag_of_defaulted record (by decide) flattenedRead
  have ns := given_of_optional namespaceOf_of_xmlNamespace record (by decide) namespaceRead
  rw [same _ _ (by decide)] at keys values flat ns
  exact ⟨rfl, .map typed keys values flat ns⟩

theorem shapeOf_of_scalarShape {k : Scalar} (typed : GivesType j k.name)
    (read : scalarShape name k body = .ok s) : s.name = name ∧ ShapeOf j s := by
  unfold scalarShape at read
  obtain ⟨r, record, read⟩ := bind_eq_ok_iff.1 read
  obtain ⟨streaming, streamingRead, read⟩ := bind_eq_ok_iff.1 read
  obtain ⟨xmlNamespace, namespaceRead, read⟩ := bind_eq_ok_iff.1 read
  cases read
  have streamed := flag_of_defaulted record (by decide) streamingRead
  have ns := given_of_optional namespaceOf_of_xmlNamespace record (by decide) namespaceRead
  rw [same _ _ (by decide)] at streamed ns
  exact ⟨rfl, .scalar typed streamed ns⟩

end

theorem string_of_shapeType {type : ShapeType} (read : shapeType j = .ok type) :
    j = .string type.name := by
  unfold shapeType at read
  split at read
  · split at read
    · rename_i found
      cases read
      rw [ShapeType.name_of_ofName? found]
    · cases read
  · cases read

/-- A shape is read from its document by the type that this gives; the type is a field like the
others, and the first one in an array. -/
theorem shapeOfType_of_shape (read : shape name j = .ok s) :
    ∃ type body, GivesType j type.name ∧ shapeOfType name type body = .ok s ∧
      ∀ names field, field ≠ "type" → body.field names field = j.field ("type" :: names) field := by
  unfold shape at read
  split at read
  · rename_i entries
    split at read
    · rename_i tag once
      obtain ⟨type, typeRead, read⟩ := bind_eq_ok_iff.1 read
      refine ⟨type, _, ?_, read, fun names field _ => rfl⟩
      rw [GivesType, Json.field, lookup_eq_head?_filter, once, string_of_shapeType typeRead]
      rfl
    · cases read
  · rename_i tag rest
    obtain ⟨type, typeRead, read⟩ := bind_eq_ok_iff.1 read
    refine ⟨type, _, ?_, read, fun names field other => ?_⟩
    · rw [string_of_shapeType typeRead]
      rfl
    · rw [Json.field, Json.field, List.zip_cons_cons, lookup_cons_ite, if_neg other]
  · cases read

theorem shapeOf_of_shape (read : shape name j = .ok s) : s.name = name ∧ ShapeOf j s := by
  obtain ⟨type, body, typed, read, same⟩ := shapeOfType_of_shape read
  cases type with
  | struct => exact shapeOf_of_structureShape same typed read
  | list => exact shapeOf_of_listShape same typed read
  | map => exact shapeOf_of_mapShape same typed read
  | scalar k => exact shapeOf_of_scalarShape same typed read

end Description

/-! ## Lists inside one another -/

/-- Lists that lead on and on do not come to an end within any bound. -/
theorem bottomsOut_of_chain {g : Graph} {c : Nat → Shape}
    (chain : ∀ i, HasItems g (c i) (c (i + 1))) (bound : Nat) :
    g.bottomsOut bound (c 0) = false := by
  induction bound generalizing c with
  | zero =>
    obtain ⟨item, flattened, isList, found⟩ := chain 0
    rw [Graph.bottomsOut, isList]
    simp only [found]
  | succ bound ih =>
    obtain ⟨item, flattened, isList, found⟩ := chain 0
    have later := ih (c := fun i => c (i + 1)) fun i => chain (i + 1)
    rw [Graph.bottomsOut, isList]
    simp only [found]
    exact later

/-! ## Graphs -/

/-- A graph is put together from the tables of the shapes and operations of its document. -/
theorem tables_of_ofJson {j : Json} {g : Graph} (read : Graph.ofJson j = .ok g) :
    ∃ metadata shapes operations shapeTable operationTable,
      GivesEntries (j.field Description.topFields "shapes") shapes ∧
      GivesEntries (j.field Description.topFields "operations") operations ∧
      Json.asTableOf Description.shape (.object shapes) = .ok shapeTable ∧
      Json.asTableOf Description.operation (.object operations) = .ok operationTable ∧
      g = Graph.assemble metadata (shapeTable.map (·.2)) (operationTable.map (·.2)) := by
  unfold Graph.ofJson at read
  obtain ⟨r, record, read⟩ := bind_eq_ok_iff.1 read
  obtain ⟨metadata, -, read⟩ := bind_eq_ok_iff.1 read
  obtain ⟨operationTable, operationsRead, read⟩ := bind_eq_ok_iff.1 read
  obtain ⟨shapeTable, shapesRead, read⟩ := bind_eq_ok_iff.1 read
  cases read
  obtain ⟨shapes, givesShapes, readShapes⟩ :=
    entries_of_defaulted record (by decide) shapesRead
  obtain ⟨operations, givesOperations, readOperations⟩ :=
    entries_of_defaulted record (by decide) operationsRead
  exact ⟨metadata, shapes, operations, shapeTable, operationTable, givesShapes, givesOperations,
    readShapes, readOperations, rfl⟩

section

variable {metadata : Metadata} {entries : List (String × Json)} {n : String}

theorem shapeOf_of_assemble {table : List (String × Shape)} {operations : List Operation}
    (read : Json.asTableOf Description.shape (.object entries) = .ok table) {s : Shape}
    (found : (Graph.assemble metadata (table.map (·.2)) operations).shapes.get? n = some s) :
    s.name = n ∧ ∃ d, lastOf entries n = some d ∧ ShapeOf d s := by
  rw [Graph.get?_shapes_assemble, List.map_map] at found
  obtain ⟨e, listed, same⟩ := List.mem_map.1 (mem_of_lastOf found)
  cases same
  obtain ⟨d, last, taken⟩ := lastOf_of_asTableOf read listed
  obtain ⟨named, isShape⟩ := Description.shapeOf_of_shape taken
  exact ⟨rfl, d, named ▸ last, isShape⟩

theorem exists_of_assemble {table : List (String × Shape)} {operations : List Operation}
    (read : Json.asTableOf Description.shape (.object entries) = .ok table)
    (key : n ∈ entries.map (·.1)) :
    ∃ s, (Graph.assemble metadata (table.map (·.2)) operations).shapes.get? n = some s := by
  rw [← List.mem_eraseDups, ← names_of_asTableOf read] at key
  obtain ⟨e, listed, rfl⟩ := List.mem_map.1 key
  obtain ⟨d, -, taken⟩ := lastOf_of_asTableOf read listed
  have there : e.1 ∈ ((table.map (·.2)).map fun s => (s.name, s)).map (·.1) := by
    rw [List.map_map, ← (Description.shapeOf_of_shape taken).1]
    exact List.mem_map_of_mem (List.mem_map_of_mem listed)
  obtain ⟨s, found⟩ := exists_lastOf there
  exact ⟨s, by rw [Graph.get?_shapes_assemble, found]⟩

/-- The operations of a graph are those that the last keys of their names give. -/
theorem get?_operations_iff_lastNamed {shapes : List Shape} {table : List (String × Operation)}
    (read : Json.asTableOf Description.operation (.object entries) = .ok table) {o : Operation} :
    (Graph.assemble metadata shapes (table.map (·.2))).operations.get? n = some o ↔
      o.name = n ∧ LastNamed entries o := by
  have isOperation {e : String × Operation} (listed : e ∈ table) :
      ∃ d, lastOf entries e.1 = some d ∧ OperationOf e.1 d e.2 := by
    obtain ⟨d, last, taken⟩ := lastOf_of_asTableOf read listed
    exact ⟨d, last, Description.operationOf_of_operation taken⟩
  rw [Graph.get?_operations_assemble, lastOf_eq_some_iff, List.map_map]
  constructor
  · rintro ⟨_, _, split, final⟩
    obtain ⟨before, rest, rfl, -, split⟩ := List.map_eq_append_iff.1 split
    obtain ⟨e, after, rfl, same, rfl⟩ := List.map_eq_cons_iff.1 split
    cases same
    obtain ⟨d, last, is⟩ := isOperation (List.mem_append_right before List.mem_cons_self)
    refine ⟨rfl, before.map (·.1), e.1, after.map (·.1), d, ?_, last, is, ?_⟩
    · rw [← names_of_asTableOf read, List.map_append, List.map_cons]
    · intro later listed v given named
      obtain ⟨e', member, rfl⟩ := List.mem_map.1 listed
      obtain ⟨d', last', is'⟩ :=
        isOperation (List.mem_append_right before (List.mem_cons_of_mem e member))
      cases given.symm.trans last'
      exact final _ (List.mem_map_of_mem member) (is'.name.unique named)
  · rintro ⟨rfl, _, key, _, d, split, last, is, final⟩
    rw [← names_of_asTableOf read] at split
    obtain ⟨before, rest, rfl, -, split⟩ := List.map_eq_append_iff.1 split
    obtain ⟨e, after, rfl, rfl, rfl⟩ := List.map_eq_cons_iff.1 split
    obtain ⟨d', last', is'⟩ := isOperation (List.mem_append_right before List.mem_cons_self)
    cases last.symm.trans last'
    cases is.unique is'
    refine ⟨_, _, by rw [List.map_append, List.map_cons]; rfl, ?_⟩
    intro _ listed same
    obtain ⟨e', member, rfl⟩ := List.mem_map.1 listed
    obtain ⟨v, given, is''⟩ :=
      isOperation (List.mem_append_right before (List.mem_cons_of_mem e member))
    exact final e'.1 (List.mem_map_of_mem member) v given (same ▸ is''.name)

theorem exists_operation_of_assemble {shapes : List Shape} {table : List (String × Operation)}
    (read : Json.asTableOf Description.operation (.object entries) = .ok table) {key : String}
    (listed : key ∈ entries.map (·.1)) :
    ∃ d n o, lastOf entries key = some d ∧ NamesOperation key d n ∧
      (Graph.assemble metadata shapes (table.map (·.2))).operations.get? n = some o := by
  rw [← List.mem_eraseDups, ← names_of_asTableOf read] at listed
  obtain ⟨e, member, rfl⟩ := List.mem_map.1 listed
  obtain ⟨d, last, taken⟩ := lastOf_of_asTableOf read member
  have there : e.2.name ∈ ((table.map (·.2)).map fun o => (o.name, o)).map (·.1) := by
    rw [List.map_map]
    exact List.mem_map_of_mem (List.mem_map_of_mem member)
  obtain ⟨o, found⟩ := exists_lastOf there
  refine ⟨d, e.2.name, o, last, (Description.operationOf_of_operation taken).name, ?_⟩
  rw [Graph.get?_operations_assemble, found]

end

/-- A list has items without a name. -/
theorem ShapeOf.itemsUnnamed {d : Json} {s : Shape} (isShape : ShapeOf d s) : s.ItemsUnnamed := by
  intro item flattened isList
  cases isShape with
  | list _ element _ _ =>
    cases isList
    exact element.1.name
  | struct | map | scalar => cases isList

/-- The lists of a loaded graph have items without a name. -/
theorem itemsUnnamed_of_load {j : Json} {g : Graph} (loaded : Graph.load j = .ok g) {n : String}
    {s : Shape} (found : g.shapes.get? n = some s) : s.ItemsUnnamed := by
  obtain ⟨metadata, shapes, operations, shapeTable, operationTable, -, -, readShapes, -, rfl⟩ :=
    tables_of_ofJson (Graph.load_eq_ok_iff.1 loaded).1
  obtain ⟨-, d, -, isShape⟩ := shapeOf_of_assemble readShapes found
  exact isShape.itemsUnnamed

/-- In a sound graph a payload that is declared is a member. -/
theorem exists_payload_of_sound {g : Graph} (sound : g.Sound) {n : String} {s : Shape}
    {f : Fields} {p : String} (found : g.shapes.get? n = some s) (isStruct : s.kind = .struct f)
    (declared : f.payload = some p) : ∃ m ∈ f.members, m.name = some p := by
  have there : f.payload.isSome = true := by
    rw [declared]
    rfl
  obtain ⟨m, member⟩ := sound.payload found isStruct there
  rw [Fields.payloadMember?, declared, Option.bind_some] at member
  exact ⟨m, List.mem_of_find?_eq_some member, by simpa using List.find?_some member⟩

/-- In a sound graph lists inside one another come to an end. -/
theorem not_chain_of_sound {g : Graph} (sound : g.Sound) {n : String} {c : Nat → Shape}
    (found : g.shapes.get? n = some (c 0)) : ¬ ∀ i, HasItems g (c i) (c (i + 1)) := by
  intro chain
  have ends := sound.bounded found
  rw [bottomsOut_of_chain chain] at ends
  cases ends

/-- A text that is taken is a document, and its graph is what the shapes and operations of this
document say. -/
theorem described_of_ofText {text : String} {g : Graph} (loaded : Graph.ofText text = .ok g) :
    ∃ j shapes operations,
      Json.read Description.layout text = .ok j ∧
      GivesEntries (j.field Description.topFields "shapes") shapes ∧
      GivesEntries (j.field Description.topFields "operations") operations ∧
      Described g shapes operations := by
  obtain ⟨j, document, loaded⟩ := Graph.ofText_eq_ok_iff.1 loaded
  obtain ⟨read, checked⟩ := Graph.load_eq_ok_iff.1 loaded
  obtain ⟨metadata, shapes, operations, shapeTable, operationTable, givesShapes, givesOperations,
    readShapes, readOperations, rfl⟩ := tables_of_ofJson read
  have sound := Graph.sound_of_check checked
  refine ⟨j, shapes, operations, document, givesShapes, givesOperations, ?_⟩
  constructor
  · exact checked
  · exact shapeOf_of_assemble readShapes
  · intro n key
    exact exists_of_assemble readShapes key
  · exact get?_operations_iff_lastNamed readOperations
  · intro key listed
    exact exists_operation_of_assemble readOperations listed
  · exact exists_payload_of_sound sound
  · intro n c found
    exact not_chain_of_sound sound found

/-! ## A letter

A description with all that a reader has to settle: a structure that is an array, a key of a member
that comes again, and an operation that is called otherwise than its key, as a later one is. -/

/-- The text of the description. -/
def letterDescription : String :=
  "\x7b\"shapes\":\x7b\"Text\":[\"string\",false,null],\"Letter\":[\"structure\"," ++
  "\x7b\"Body\":\x7b\"shape\":\"Letter\"\x7d,\"To\":\x7b\"shape\":\"Text\"\x7d," ++
  "\"Body\":\x7b\"shape\":\"Text\"\x7d\x7d,[\"To\"],\"Body\",null]\x7d," ++
  "\"operations\":\x7b\"Put\":\x7b\"name\":\"Send\"\x7d," ++
  "\"Send\":\x7b\"input\":\x7b\"shape\":\"Letter\"\x7d\x7d\x7d\x7d"

/-- The document that it is. -/
def letterDocument : Json :=
  .object [
    ("shapes", .object [
      ("Text", .array [.string "string", .bool false, .null]),
      ("Letter", .array [
        .string "structure",
        .object [
          ("Body", .object [("shape", .string "Letter")]),
          ("To", .object [("shape", .string "Text")]),
          ("Body", .object [("shape", .string "Text")])],
        .array [.string "To"], .string "Body", .null])]),
    ("operations", .object [
      ("Put", .object [("name", .string "Send")]),
      ("Send", .object [("input", .object [("shape", .string "Letter")])])])]

/-- Its graph.  The body of a letter comes first and is a text. -/
def letterGraph : Graph :=
  Graph.assemble .none
    [⟨"Text", .scalar .string, none, false⟩,
     ⟨"Letter",
      .struct ⟨[
        ⟨some "Body", "Text", none, .body, false, false, none, true, false⟩,
        ⟨some "To", "Text", none, .body, true, false, none, false, false⟩], some "Body"⟩,
      none, false⟩]
    [⟨"Send", none⟩, ⟨"Send", some "Letter"⟩]

set_option maxRecDepth 2000 in
theorem read_letterDescription :
    Json.read Description.layout letterDescription = .ok letterDocument := by
  with_unfolding_all rfl

theorem load_letterDocument : Graph.load letterDocument = .ok letterGraph := rfl

theorem described_of_ofText_letter :
    ∃ j shapes operations,
      Json.read Description.layout letterDescription = .ok j ∧
      GivesEntries (j.field Description.topFields "shapes") shapes ∧
      GivesEntries (j.field Description.topFields "operations") operations ∧
      Described letterGraph shapes operations := by
  have loaded : Graph.ofText letterDescription = .ok letterGraph :=
    Graph.ofText_eq_ok_iff.2 ⟨letterDocument, read_letterDescription, load_letterDocument⟩
  exact described_of_ofText loaded

example : letterGraph.operations.entries = [("Send", ⟨"Send", some "Letter"⟩)] := rfl

end WireBody.Service
