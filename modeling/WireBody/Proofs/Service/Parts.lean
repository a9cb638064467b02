import WireBody.Proofs.Service.Described

/-!
# The parts of a description

A description is read by one reader for each of its parts, and a part is read where its record or
table says so: a member under `member` in a list, or under any key in `members`.  `Part` names what a
place is read as and `Within` a change at one place of a document, however deep.

What is read at a place depends only on what is read at the places inside it.  So a change that is
read alike where it is made is read alike from the whole description, and a proof about some kind of
change is a proof about one object.  The tables of shapes and operations count for what is stored of
them, which leaves their order out.

Main statement: `alike_of_within`.
-/

set_option autoImplicit false

namespace WireBody.Service.Description

/-! ## Parts -/

/-- The fields that a shape of a type has besides its type. -/
def ShapeType.fields : ShapeType → List String
  | .struct => structureFields
  | .list => listFields
  | .map => mapFields
  | .scalar _ => scalarFields

/-- The tag of a shape. -/
def tag? : Json → Option Json
  | .object entries =>
    match entries.filter fun e => e.1 = "type" with
    | [(_, tag)] => some tag
    | _ => none
  | .array (tag :: _) => some tag
  | _ => none

/-- The type that a shape gives, if it gives one. -/
def typeOf (j : Json) : Option ShapeType := (tag? j).bind fun tag => (shapeType tag).toOption

/-- What a place of a description is read as. -/
inductive Part where
  /-- A text, a truth value, a location or a list of texts. -/
  | value
  | description
  | metadata
  | operations
  | operation
  | reference
  | shapes
  /-- A shape that gives this type. -/
  | shape (type : Option ShapeType)
  | members
  | member
  | xmlNamespace
  deriving DecidableEq

namespace Part

/-- The fields of a part that is a record. -/
def fields? : Part → Option (List String)
  | .description => some topFields
  | .metadata => some metadataFields
  | .operation => some operationFields
  | .reference => some referenceFields
  | .shape none => some ["type"]
  | .shape (some type) => some ("type" :: type.fields)
  | .member => some memberFields
  | .xmlNamespace => some namespaceFields
  | .value | .operations | .shapes | .members => none

/-- What a field of a record is read as. -/
def field : Part → String → Part
  | .description, "metadata" => .metadata
  | .description, "operations" => .operations
  | .description, "shapes" => .shapes
  | .operation, "input" => .reference
  | .shape (some .struct), "members" => .members
  | .shape (some .list), "member" => .member
  | .shape (some .map), "key" => .member
  | .shape (some .map), "value" => .member
  | .shape (some _), "xmlNamespace" => .xmlNamespace
  | .member, "xmlNamespace" => .xmlNamespace
  | _, _ => .value

/-- What an entry of a table is read as. -/
def each : Part → Json → Option Part
  | .operations, _ => some .operation
  | .shapes, j => some (.shape (typeOf j))
  | .members, _ => some .member
  | _, _ => none

end Part

/-- A change of one place of a part, which `R` says for what the place is read as. -/
inductive Within (R : Part → Json → Json → Prop) : Part → Json → Json → Prop
  | here {p : Part} {j j' : Json} : R p j j' → Within R p j j'
  | field {p : Part} {names : List String} {name : String} {before after : List (String × Json)}
      {v v' : Json} :
      p.fields? = some names → name ∈ names → Within R (p.field name) v v' →
      Within R p (.object (before ++ (name, v) :: after)) (.object (before ++ (name, v') :: after))
  | item {p : Part} {names : List String} {name : String} {before after : List Json} {v v' : Json} :
      p.fields? = some names → names[before.length]? = some name → Within R (p.field name) v v' →
      Within R p (.array (before ++ v :: after)) (.array (before ++ v' :: after))
  | entry {p q : Part} {key : String} {before after : List (String × Json)} {v v' : Json} :
      p.each v = some q → Within R q v v' →
      Within R p (.object (before ++ (key, v) :: after)) (.object (before ++ (key, v') :: after))

/-! ## Records -/

/-- Two records whose fields are alike, as `Q` says for what a field is read as. -/
structure AlikeRecords (Q : Part → Json → Json → Prop) (p : Part) (names : List String)
    (r r' : Record) : Prop where
  positional : r.positional = r'.positional
  field : ∀ name ∈ names,
    Option.Rel (Q (p.field name)) (r.given.lookup name) (r'.given.lookup name)

/-- Two documents that are no records of these fields, or records with fields alike. -/
inductive SameRecord (Q : Part → Json → Json → Prop) (p : Part) (names : List String) (j j' : Json) :
    Prop
  | neither {f : Fault} :
      Record.ofJson names j = .error f → Record.ofJson names j' = .error f → SameRecord Q p names j j'
  | both {r r' : Record} :
      Record.ofJson names j = .ok r → Record.ofJson names j' = .ok r' → AlikeRecords Q p names r r' →
      SameRecord Q p names j j'

section

variable {Q : Part → Json → Json → Prop} {p : Part} {names : List String} {name : String}

theorem sameRecord_of_eq (refl : ∀ q j, Q q j j) {j j' : Json}
    (same : Record.ofJson names j = Record.ofJson names j') : SameRecord Q p names j j' := by
  cases read : Record.ofJson names j with
  | error f => exact .neither read (same ▸ read)
  | ok r =>
    refine .both read (same ▸ read) ⟨rfl, fun n _ => ?_⟩
    cases r.given.lookup n with
    | none => exact .none
    | some v => exact .some (refl _ v)

/-- Entries that have one value other than others repeat the same names. -/
theorem repeated_replace {before after : List (String × Json)} {v v' : Json} (n : String) :
    Record.repeated (before ++ (name, v) :: after) n =
      Record.repeated (before ++ (name, v') :: after) n := by
  simp only [Record.repeated, List.countP_append, List.countP_cons]

theorem rel_refl (refl : ∀ q j, Q q j j) (q : Part) (x : Option Json) : Option.Rel (Q q) x x := by
  cases x with
  | none => exact .none
  | some v => exact .some (refl q v)

theorem rel_lookup_replace (refl : ∀ q j, Q q j j) {before after : List (String × Json)}
    {v v' : Json} (alike : Q (p.field name) v v') (n : String) :
    Option.Rel (Q (p.field n)) ((before ++ (name, v) :: after).lookup n)
      ((before ++ (name, v') :: after).lookup n) := by
  rcases lookup_replaced before after name n v v' with same | ⟨same, found, found'⟩
  · rw [same]
    exact rel_refl refl _ _
  · rw [found, found']
    exact .some (same ▸ alike)

theorem sameRecord_of_field (refl : ∀ q j, Q q j j) {before after : List (String × Json)}
    {v v' : Json} (alike : Q (p.field name) v v') :
    SameRecord Q p names (.object (before ++ (name, v) :: after))
      (.object (before ++ (name, v') :: after)) := by
  have repeats : names.any (Record.repeated (before ++ (name, v) :: after)) =
      names.any (Record.repeated (before ++ (name, v') :: after)) :=
    congrArg names.any (funext repeated_replace)
  cases again : names.any (Record.repeated (before ++ (name, v) :: after)) with
  | true =>
    refine .neither (f := .mismatched) (if_pos again) (if_pos (repeats ▸ again))
  | false =>
    refine .both (if_neg (Bool.not_eq_true _ ▸ again))
      (if_neg (Bool.not_eq_true _ ▸ repeats ▸ again)) ⟨rfl, fun n known => ?_⟩
    rw [Record.lookup_filterMap _ known, Record.lookup_filterMap _ known]
    exact rel_lookup_replace refl alike n

theorem sameRecord_of_item (refl : ∀ q j, Q q j j) {before after : List Json} {v v' : Json}
    (there : names[before.length]? = some name) (alike : Q (p.field name) v v') :
    SameRecord Q p names (.array (before ++ v :: after)) (.array (before ++ v' :: after)) := by
  have lengths : (before ++ v' :: after).length = (before ++ v :: after).length := by simp
  by_cases surplus : names.length < (before ++ v :: after).length
  · exact .neither (f := .mismatched) (if_pos surplus) (if_pos (lengths ▸ surplus))
  · refine .both (if_neg surplus) (if_neg (lengths ▸ surplus)) ⟨rfl, fun n _ => ?_⟩
    obtain ⟨short, rfl⟩ := List.getElem?_eq_some_iff.1 there
    have split : names = names.take before.length ++
        names[before.length] :: names.drop (before.length + 1) := by simp
    have aligned : (names.take before.length).length = before.length :=
      List.length_take_of_le (Nat.le_of_lt short)
    have zipped (w : Json) : names.zip (before ++ w :: after) =
        (names.take before.length).zip before ++
          (names[before.length], w) :: (names.drop (before.length + 1)).zip after := by
      conv_lhs => rw [split]
      rw [List.zip_append aligned, List.zip_cons_cons]
    simp only [zipped]
    exact rel_lookup_replace refl alike n

variable {α : Type} {j j' : Json} {r r' : Record}

theorem AlikeRecords.lookup (alike : AlikeRecords Q p names r r') (known : name ∈ names) :
    r.given.lookup name = none ∧ r'.given.lookup name = none ∨
      ∃ v v', r.given.lookup name = some v ∧ r'.given.lookup name = some v' ∧
        Q (p.field name) v v' := by
  have related := alike.field name known
  generalize r.given.lookup name = x, r'.given.lookup name = x' at related ⊢
  cases related with
  | none => exact .inl ⟨rfl, rfl⟩
  | some values => exact .inr ⟨_, _, rfl, rfl, values⟩

theorem AlikeRecords.needed (alike : AlikeRecords Q p names r r') (name : String)
    (known : name ∈ names)
    {d : Json → Except Fault α} (same : ∀ v v', Q (p.field name) v v' → d v = d v') :
    r.needed name d = r'.needed name d := by
  unfold Record.needed
  rcases alike.lookup known with ⟨absent, absent'⟩ | ⟨v, v', found, found', values⟩
  · rw [absent, absent']
  · rw [found, found']
    exact same v v' values

theorem AlikeRecords.defaulted (alike : AlikeRecords Q p names r r') (name : String)
    (known : name ∈ names)
    (default : α) {d : Json → Except Fault α} (same : ∀ v v', Q (p.field name) v v' → d v = d v') :
    r.defaulted name default d = r'.defaulted name default d := by
  unfold Record.defaulted
  rcases alike.lookup known with ⟨absent, absent'⟩ | ⟨v, v', found, found', values⟩
  · rw [absent, absent']
  · rw [found, found']
    exact same v v' values

theorem AlikeRecords.optional (alike : AlikeRecords Q p names r r') (name : String)
    (known : name ∈ names)
    {d : Json → Except Fault α}
    (same : ∀ v v', Q (p.field name) v v' → Record.orNull d v = Record.orNull d v') :
    r.optional name d = r'.optional name d := by
  unfold Record.optional
  rw [alike.positional]
  rcases alike.lookup known with ⟨absent, absent'⟩ | ⟨v, v', found, found', values⟩
  · rw [absent, absent']
  · rw [found, found']
    exact same v v' values

theorem AlikeRecords.omittable (alike : AlikeRecords Q p names r r') (name : String)
    (known : name ∈ names)
    {d : Json → Except Fault α}
    (same : ∀ v v', Q (p.field name) v v' → Record.orNull d v = Record.orNull d v') :
    r.omittable name d = r'.omittable name d :=
  alike.defaulted name known none same

/-- Records with fields alike are read alike. -/
theorem SameRecord.bind (same : SameRecord Q p names j j') {k k' : Record → Except Fault α}
    (each : ∀ r r', AlikeRecords Q p names r r' → k r = k' r') :
    (Record.ofJson names j >>= k) = (Record.ofJson names j' >>= k') := by
  cases same with
  | neither read read' => rw [read, read', error_bind, error_bind]
  | both read read' alike => rw [read, read', ok_bind, ok_bind, each _ _ alike]

end

/-! ## What is read alike -/

/-- The values of a table, each stored under its name. -/
def storedBy {α : Type} (name : α → String) (table : List (String × α)) : NameMap α :=
  (table.map (·.2)).foldl (fun m a => m.insert (name a) a) .empty

/-- Two places are read alike as this part. -/
def Alike : Part → Json → Json → Prop
  | .value, j, j' => j = j'
  | .description, j, j' => Graph.ofJson j = Graph.ofJson j'
  | .metadata, j, j' => metadata j = metadata j'
  | .operations, j, j' =>
    (Json.asTableOf operation j).map (storedBy Operation.name) =
      (Json.asTableOf operation j').map (storedBy Operation.name)
  | .operation, j, j' => ∀ key, operation key j = operation key j'
  | .reference, j, j' => Record.orNull reference j = Record.orNull reference j'
  | .shapes, j, j' =>
    (Json.asTableOf shape j).map (storedBy Shape.name) =
      (Json.asTableOf shape j').map (storedBy Shape.name)
  | .shape type, j, j' => typeOf j = type → ∀ name, shape name j = shape name j'
  | .members, j, j' => Json.asTableOf (fun _ => member) j = Json.asTableOf (fun _ => member) j'
  | .member, j, j' => member j = member j'
  | .xmlNamespace, j, j' => Record.orNull xmlNamespace j = Record.orNull xmlNamespace j'

theorem Alike.refl (p : Part) (j : Json) : Alike p j j := by
  cases p <;> simp [Alike]

variable {j j' : Json}

theorem Alike.of_value {β : Type} {v v' : Json} (d : Json → β) (alike : Alike .value v v') :
    d v = d v' :=
  congrArg d alike

/-! ## Readers of records -/

theorem metadata_congr (same : SameRecord Alike .metadata metadataFields j j') :
    metadata j = metadata j' := by
  refine same.bind fun r r' alike => ?_
  rw [alike.defaulted "protocol" (by decide) "" fun _ _ => Alike.of_value Json.asString]
  rw [alike.omittable "serviceId" (by decide) fun _ _ =>
    Alike.of_value (Record.orNull Json.asString)]
  rw [alike.omittable "apiVersion" (by decide) fun _ _ =>
    Alike.of_value (Record.orNull Json.asString)]

theorem xmlNamespace_congr (same : SameRecord Alike .xmlNamespace namespaceFields j j') :
    xmlNamespace j = xmlNamespace j' := by
  refine same.bind fun r r' alike => ?_
  rw [alike.needed "uri" (by decide) fun _ _ => Alike.of_value Json.asString]
  rw [alike.omittable "prefix" (by decide) fun _ _ =>
    Alike.of_value (Record.orNull Json.asString)]

theorem member_congr (same : SameRecord Alike .member memberFields j j') :
    member j = member j' := by
  refine same.bind fun r r' alike => ?_
  rw [alike.needed "shape" (by decide) fun _ _ => Alike.of_value Json.asString]
  rw [alike.optional "locationName" (by decide) fun _ _ =>
    Alike.of_value (Record.orNull Json.asString)]
  rw [alike.optional "location" (by decide) fun _ _ =>
    Alike.of_value (Record.orNull location)]
  rw [alike.defaulted "xmlAttribute" (by decide) false fun _ _ =>
    Alike.of_value Json.asBool]
  rw [alike.optional "xmlNamespace" (by decide) fun _ _ values => values]
  rw [alike.defaulted "streaming" (by decide) false fun _ _ =>
    Alike.of_value Json.asBool]

theorem reference_congr (same : SameRecord Alike .reference referenceFields j j') :
    reference j = reference j' := by
  refine same.bind fun r r' alike => ?_
  rw [alike.needed "shape" (by decide) fun _ _ => Alike.of_value Json.asString]

theorem operation_congr (same : SameRecord Alike .operation operationFields j j') (key : String) :
    operation key j = operation key j' := by
  refine same.bind fun r r' alike => ?_
  rw [alike.optional "name" (by decide) fun _ _ =>
    Alike.of_value (Record.orNull Json.asString)]
  rw [alike.optional "input" (by decide) fun _ _ values => values]

theorem structureShape_congr (name : String)
    (same : SameRecord Alike (.shape (some .struct)) structureFields j j') :
    structureShape name j = structureShape name j' := by
  refine same.bind fun r r' alike => ?_
  rw [alike.defaulted "members" (by decide) [] fun _ _ values => values]
  rw [alike.defaulted "required" (by decide) [] fun _ _ =>
    Alike.of_value (Json.asArrayOf Json.asString)]
  rw [alike.optional "payload" (by decide) fun _ _ =>
    Alike.of_value (Record.orNull Json.asString)]
  rw [alike.optional "xmlNamespace" (by decide) fun _ _ values => values]

theorem listShape_congr (name : String)
    (same : SameRecord Alike (.shape (some .list)) listFields j j') :
    listShape name j = listShape name j' := by
  refine same.bind fun r r' alike => ?_
  rw [alike.needed "member" (by decide) fun _ _ values => values]
  rw [alike.defaulted "flattened" (by decide) false fun _ _ =>
    Alike.of_value Json.asBool]
  rw [alike.optional "xmlNamespace" (by decide) fun _ _ values => values]

theorem mapShape_congr (name : String)
    (same : SameRecord Alike (.shape (some .map)) mapFields j j') :
    mapShape name j = mapShape name j' := by
  refine same.bind fun r r' alike => ?_
  rw [alike.needed "key" (by decide) fun _ _ values => values]
  rw [alike.needed "value" (by decide) fun _ _ values => values]
  rw [alike.defaulted "flattened" (by decide) false fun _ _ =>
    Alike.of_value Json.asBool]
  rw [alike.optional "xmlNamespace" (by decide) fun _ _ values => values]

theorem scalarShape_congr (name : String) (scalar : Scalar)
    (same : SameRecord Alike (.shape (some (.scalar scalar))) scalarFields j j') :
    scalarShape name scalar j = scalarShape name scalar j' := by
  refine same.bind fun r r' alike => ?_
  rw [alike.defaulted "streaming" (by decide) false fun _ _ =>
    Alike.of_value Json.asBool]
  rw [alike.optional "xmlNamespace" (by decide) fun _ _ values => values]

/-! ## Readers of shapes -/

theorem shapeOfType_congr (name : String) {type : ShapeType}
    (same : SameRecord Alike (.shape (some type)) type.fields j j') :
    shapeOfType name type j = shapeOfType name type j' := by
  cases type with
  | struct => exact structureShape_congr name same
  | list => exact listShape_congr name same
  | map => exact mapShape_congr name same
  | scalar scalar => exact scalarShape_congr name scalar same

/-- An object is read by the type of its tag. -/
theorem shape_object (name : String) (entries : List (String × Json)) :
    shape name (.object entries) = match tag? (.object entries) with
      | some tag => do shapeOfType name (← shapeType tag) (.object entries)
      | none => .error .mismatched := by
  simp only [shape, tag?]
  generalize entries.filter (fun e => e.1 = "type") = tags
  rcases tags with _ | ⟨e, _ | ⟨e', rest⟩⟩ <;> rfl

theorem shape_congr_object {entries entries' : List (String × Json)}
    (tags : tag? (.object entries) = tag? (.object entries'))
    (same : ∀ type, typeOf (.object entries) = some type →
      SameRecord Alike (.shape (some type)) type.fields (.object entries) (.object entries'))
    (name : String) : shape name (.object entries) = shape name (.object entries') := by
  rw [shape_object, shape_object, ← tags]
  cases given : tag? (.object entries) with
  | none => rfl
  | some tag =>
    simp only
    cases read : shapeType tag with
    | error f => rfl
    | ok type =>
      have typed : typeOf (.object entries) = some type := by
        rw [typeOf, given, Option.bind_some, read, Except.toOption]
      exact shapeOfType_congr name (same type typed)

theorem shape_congr_array {tag : Json} {items items' : List Json}
    (same : ∀ type, typeOf (.array (tag :: items)) = some type →
      SameRecord Alike (.shape (some type)) type.fields (.array items) (.array items'))
    (name : String) : shape name (.array (tag :: items)) = shape name (.array (tag :: items')) := by
  simp only [shape]
  cases read : shapeType tag with
  | error f => rfl
  | ok type =>
    have typed : typeOf (.array (tag :: items)) = some type := by
      simp only [typeOf, tag?, Option.bind_some, read, Except.toOption]
    exact shapeOfType_congr name (same type typed)

/-! ## Whole descriptions -/

/-- A graph is put together from what is stored of its tables. -/
theorem assemble_congr (metadata : Metadata) {shapes shapes' : List (String × Shape)}
    {operations operations' : List (String × Operation)}
    (sameShapes : storedBy Shape.name shapes = storedBy Shape.name shapes')
    (sameOperations : storedBy Operation.name operations = storedBy Operation.name operations') :
    Graph.assemble metadata (shapes.map (·.2)) (operations.map (·.2)) =
      Graph.assemble metadata (shapes'.map (·.2)) (operations'.map (·.2)) := by
  refine Graph.ext ?_ ?_ ?_
  · rw [Graph.metadata_assemble, Graph.metadata_assemble]
  · rw [Graph.shapes_assemble, Graph.shapes_assemble]
    exact sameShapes
  · rw [Graph.operations_assemble, Graph.operations_assemble]
    exact sameOperations

theorem ofJson_congr (same : SameRecord Alike .description topFields j j') :
    Graph.ofJson j = Graph.ofJson j' := by
  refine same.bind fun r r' alike => ?_
  rw [alike.defaulted "metadata" (by decide) Metadata.none fun _ _ values => values]
  refine congrArg _ (funext fun metadata => ?_)
  refine bind_congr_of_map (f := storedBy Operation.name) ?_ fun operations operations' stored => ?_
  · rw [Record.map_defaulted, Record.map_defaulted]
    exact alike.defaulted "operations" (by decide) _ fun _ _ values => values
  refine bind_congr_of_map (f := storedBy Shape.name) ?_ fun shapes shapes' stored' => ?_
  · rw [Record.map_defaulted, Record.map_defaulted]
    exact alike.defaulted "shapes" (by decide) _ fun _ _ values => values
  exact congrArg Except.ok (assemble_congr metadata stored' stored)

/-! ## Changes -/

/-- A record is read alike if its fields are. -/
theorem alike_of_record {p : Part} {names : List String} (fields : p.fields? = some names)
    (noShape : ∀ type, p ≠ .shape type) (null : j = .null ↔ j' = .null)
    (same : SameRecord Alike p names j j') : Alike p j j' := by
  cases p with
  | value | operations | shapes | members => cases fields
  | shape type => exact absurd rfl (noShape type)
  | description => cases fields; exact ofJson_congr same
  | metadata => cases fields; exact metadata_congr same
  | operation => cases fields; exact operation_congr same
  | reference => cases fields; exact Record.orNull_congr (reference_congr same) null
  | member => cases fields; exact member_congr same
  | xmlNamespace => cases fields; exact Record.orNull_congr (xmlNamespace_congr same) null

/-- An object in which the same is given is read alike, whether it is a shape or another record. -/
theorem alike_of_object {p : Part} {names : List String} {entries entries' : List (String × Json)}
    (fields : p.fields? = some names)
    (tags : ∀ type, p = .shape type → tag? (.object entries) = tag? (.object entries'))
    (same : ∀ names' ⊆ names,
      Record.ofJson names' (.object entries) = Record.ofJson names' (.object entries')) :
    Alike p (.object entries) (.object entries') := by
  by_cases isShape : ∃ type, p = .shape type
  · obtain ⟨type, rfl⟩ := isShape
    intro typed
    refine shape_congr_object (tags type rfl) fun type' typed' => ?_
    cases typed.symm.trans typed'
    cases fields
    exact sameRecord_of_eq Alike.refl (same _ (List.subset_cons_self _ _))
  · refine alike_of_record fields (fun type isType => isShape ⟨type, isType⟩) ?_
      (sameRecord_of_eq Alike.refl (same names (List.Subset.refl names)))
    exact iff_of_false Json.noConfusion Json.noConfusion

section

variable {p : Part} {names : List String} {name : String}

theorem Alike.field {before after : List (String × Json)} {v v' : Json}
    (fields : p.fields? = some names) (known : name ∈ names) (alike : Alike (p.field name) v v') :
    Alike p (.object (before ++ (name, v) :: after)) (.object (before ++ (name, v') :: after)) := by
  by_cases isShape : ∃ type, p = .shape type
  · obtain ⟨type, rfl⟩ := isShape
    by_cases isTag : name = "type"
    · have untouched : Part.field (.shape type) name = .value := by
        subst isTag
        rcases type with _ | _ | _ | _ | _ <;> rfl
      rw [untouched] at alike
      cases alike
      exact .refl _ _
    · intro typed
      refine shape_congr_object ?_ fun type' typed' => ?_
      · simp only [tag?, List.filter_append, List.filter_cons, isTag, decide_false,
          Bool.false_eq_true, ↓reduceIte]
      · cases typed.symm.trans typed'
        exact sameRecord_of_field Alike.refl alike
  · refine alike_of_record fields (fun type same => isShape ⟨type, same⟩) ?_
      (sameRecord_of_field Alike.refl alike)
    exact iff_of_false Json.noConfusion Json.noConfusion

theorem Alike.item {before after : List Json} {v v' : Json} (fields : p.fields? = some names)
    (there : names[before.length]? = some name) (alike : Alike (p.field name) v v') :
    Alike p (.array (before ++ v :: after)) (.array (before ++ v' :: after)) := by
  by_cases isShape : ∃ type, p = .shape type
  · obtain ⟨type, rfl⟩ := isShape
    cases before with
    | nil =>
      have isTag : name = "type" := by
        rcases type with _ | _ <;> cases fields <;> cases there <;> rfl
      have untouched : Part.field (.shape type) name = .value := by
        subst isTag
        rcases type with _ | _ | _ | _ | _ <;> rfl
      rw [untouched] at alike
      cases alike
      exact .refl _ _
    | cons tag before =>
      intro typed
      refine shape_congr_array fun type' typed' => ?_
      cases typed.symm.trans typed'
      cases fields
      exact sameRecord_of_item Alike.refl there alike
  · refine alike_of_record fields (fun type same => isShape ⟨type, same⟩) ?_
      (sameRecord_of_item Alike.refl there alike)
    exact iff_of_false Json.noConfusion Json.noConfusion

theorem Alike.entry {q : Part} {key : String} {before after : List (String × Json)} {v v' : Json}
    (each : p.each v = some q) (alike : Alike q v v') :
    Alike p (.object (before ++ (key, v) :: after)) (.object (before ++ (key, v') :: after)) := by
  cases p with
  | operations =>
    cases each
    exact congrArg _ (asTableOf_replace (alike key))
  | shapes =>
    cases each
    exact congrArg _ (asTableOf_replace (alike rfl key))
  | members =>
    cases each
    exact asTableOf_replace alike
  | _ => cases each

end

/-- A change that is read alike where it is made is read alike from anywhere around it. -/
theorem alike_of_within {R : Part → Json → Json → Prop}
    (base : ∀ p j j', R p j j' → Alike p j j') {p : Part} (change : Within R p j j') :
    Alike p j j' := by
  induction change with
  | here made => exact base _ _ _ made
  | field fields known _ ih => exact Alike.field fields known ih
  | item fields there _ ih => exact Alike.item fields there ih
  | entry each _ ih => exact Alike.entry each ih

end WireBody.Service.Description
