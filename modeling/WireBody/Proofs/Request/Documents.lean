import WireBody.Proofs.Json.ByName
import WireBody.Proofs.Text.ByteOrder
import WireBody.Request.OfJson
import WireBody.Run.Interp

/-!
# What a document says of a request

A request is read from a document that is kept by name.  All that is lost on the way is null, which
stands for what is absent, and what tells a number from its text: the value that is read has a
document in turn, and this is the one that was read, normalised.  An array or object that has nulls
alone in it becomes empty, not absent.

Main definitions: `Json.normalise` leaves nulls out and turns numbers into texts, and `Value.toJson`
is the document of a value.  Main statement: `ofJson_normalises`.
-/

set_option autoImplicit false

namespace WireBody.Json

/-! ## Normal documents -/

/-- Whether a document is null. -/
def isNull : Json → Bool
  | .null => true
  | _ => false

mutual

/-- A document without the nulls in its arrays and objects, and with the texts of its numbers. -/
def normalise : Json → Json
  | .number n => .string n.text
  | .array items => .array (normaliseItems items)
  | .object entries => .object (normaliseEntries entries)
  | j => j

/-- The items that are not null. -/
def normaliseItems : List Json → List Json
  | [] => []
  | j :: rest => if j.isNull then normaliseItems rest else j.normalise :: normaliseItems rest

/-- The entries whose values are not null. -/
def normaliseEntries : List (String × Json) → List (String × Json)
  | [] => []
  | (name, j) :: rest =>
    if j.isNull then normaliseEntries rest else (name, j.normalise) :: normaliseEntries rest

end

/-- What is left of a document inside another one. -/
def kept (j : Json) : Option Json := if j.isNull then none else some j.normalise

theorem normaliseItems_eq_filterMap (items : List Json) :
    normaliseItems items = items.filterMap kept := by
  induction items with
  | nil => rfl
  | cons j rest ih =>
    rw [normaliseItems, List.filterMap_cons, ih, kept]
    split
    · rfl
    · rfl

theorem normaliseEntries_eq_filterMap (entries : List (String × Json)) :
    normaliseEntries entries = entries.filterMap fun e => e.2.kept.map (e.1, ·) := by
  induction entries with
  | nil => rfl
  | cons e rest ih =>
    rw [normaliseEntries, List.filterMap_cons, ih, kept]
    split
    · rfl
    · rfl

theorem isNull_iff {j : Json} : j.isNull = true ↔ j = .null := by
  cases j <;> simp [isNull]

/-- Nothing but null is null when it is kept by name. -/
theorem isNull_byName (j : Json) : j.byName.isNull = j.isNull := by
  cases j <;> simp [byName, isNull]

theorem isNull_normalise (j : Json) : j.normalise.isNull = j.isNull := by
  cases j <;> simp [normalise, isNull]

end WireBody.Json

namespace WireBody.Request.Value

/-! ## Documents of values -/

mutual

/-- The document of a value.  Bytes have none. -/
def toJson : Value → Json
  | .struct fields => .object (fieldsToJson fields)
  | .list items => .array (itemsToJson items)
  | .text s => .string s
  | .blob _ => .null
  | .boolean b => .bool b

/-- The documents of items. -/
def itemsToJson : List Value → List Json
  | [] => []
  | v :: rest => v.toJson :: itemsToJson rest

/-- The documents of fields, under their names. -/
def fieldsToJson : List (String × Value) → List (String × Json)
  | [] => []
  | (name, v) :: rest => (name, v.toJson) :: fieldsToJson rest

end

/-- A value that has no bytes in it, and whose structures have their fields in the order of the bytes
of their names. -/
inductive Plain : Value → Prop
  | text (s : String) : Plain (.text s)
  | boolean (b : Bool) : Plain (.boolean b)
  | list {items : List Value} : (∀ v ∈ items, Plain v) → Plain (.list items)
  | struct {fields : List (String × Value)} :
      fields.Pairwise (fun a b => Text.bytes a.1 < Text.bytes b.1) → (∀ e ∈ fields, Plain e.2) →
      Plain (.struct fields)

theorem itemsToJson_eq_map (items : List Value) : itemsToJson items = items.map toJson := by
  induction items with
  | nil => rfl
  | cons v rest ih => rw [itemsToJson, ih, List.map_cons]

theorem fieldsToJson_eq_map (fields : List (String × Value)) :
    fieldsToJson fields = fields.map fun e => (e.1, e.2.toJson) := by
  induction fields with
  | nil => rfl
  | cons e rest ih => rw [fieldsToJson, ih, List.map_cons]

/-! ## What is read -/

theorem ofItems_eq_filterMap (items : List Json) : ofItems items = items.filterMap ofJson := by
  induction items with
  | nil => rfl
  | cons j rest ih =>
    rw [ofItems, List.filterMap_cons, ih]
    cases ofJson j with
    | none => rfl
    | some v => rfl

theorem ofEach_eq_map (entries : List (String × Json)) :
    ofEach entries = entries.map fun e => (e.1, ofJson e.2) := by
  induction entries with
  | nil => rfl
  | cons e rest ih => rw [ofEach, ih, List.map_cons]

theorem ofJson_array (items : List Json) :
    ofJson (.array items) = some (.list (items.filterMap ofJson)) := by
  rw [ofJson, ofItems_eq_filterMap]

/-- The fields that are read of an object are those of its entries by name that are not null. -/
theorem ofJson_object (entries : List (String × Json)) :
    ofJson (.object entries) =
      some (.struct ((NameMap.ofList entries).entries.filterMap fun e =>
        (ofJson e.2).map (e.1, ·))) := by
  rw [ofJson, ofEach_eq_map, NameMap.entries_ofList_map, present, List.filterMap_map]
  rfl

/-- The document of what is read is what is left of the document that is read. -/
theorem map_toJson_ofJson (j : Json) : (ofJson j).map toJson = j.byName.kept := by
  induction j using Json.induction_on_contents with
  | null => rfl
  | bool b => rfl
  | number n => rfl
  | string s => rfl
  | array items ih =>
    have left : (items.filterMap ofJson).map toJson = (items.map Json.byName).filterMap Json.kept := by
      rw [List.map_filterMap, List.filterMap_map]
      exact List.filterMap_congr ih
    rw [ofJson_array, Option.map_some, toJson, itemsToJson_eq_map, left, Json.byName_array, Json.kept,
      Json.normalise, Json.normaliseItems_eq_filterMap]
    rfl
  | object entries ih =>
    have left {l : List (String × Json)} (below : ∀ e ∈ l, e ∈ entries) :
        ((l.filterMap fun e => (ofJson e.2).map (e.1, ·)).map fun e => (e.1, e.2.toJson)) =
          (l.map fun e => (e.1, e.2.byName)).filterMap fun e => e.2.kept.map (e.1, ·) := by
      rw [List.map_filterMap, List.filterMap_map]
      refine List.filterMap_congr fun e listed => ?_
      rw [Function.comp_apply, ← ih e (below e listed), Option.map_map, Option.map_map]
      rfl
    rw [ofJson_object, Option.map_some, toJson, fieldsToJson_eq_map,
      left fun e => NameMap.mem_of_mem_ofList, Json.byName_object, Json.kept, Json.normalise,
      Json.normaliseEntries_eq_filterMap]
    rfl

/-- What is read is plain. -/
theorem plain_of_ofJson {j : Json} {v : Value} (read : ofJson j = some v) : v.Plain := by
  induction j using Json.induction_on_contents generalizing v with
  | null => cases read
  | bool b =>
    cases read
    exact .boolean b
  | number n =>
    cases read
    exact .text n.text
  | string s =>
    cases read
    exact .text s
  | array items ih =>
    rw [ofJson_array] at read
    cases read
    refine .list fun w listed => ?_
    obtain ⟨k, member, read⟩ := List.mem_filterMap.1 listed
    exact ih k member read
  | object entries ih =>
    rw [ofJson_object] at read
    cases read
    refine .struct ?_ fun e listed => ?_
    · -- Leaving entries out keeps the order of the others.
      refine List.pairwise_filterMap.2 ((NameMap.ofList entries).ordered.imp ?_)
      intro a b less a' isSome b' isSome'
      obtain ⟨_, -, rfl⟩ := Option.map_eq_some_iff.1 isSome
      obtain ⟨_, -, rfl⟩ := Option.map_eq_some_iff.1 isSome'
      exact Text.lt_iff_bytes_lt.1 less
    · obtain ⟨e', member, isSome⟩ := List.mem_filterMap.1 listed
      obtain ⟨w, read, rfl⟩ := Option.map_eq_some_iff.1 isSome
      exact ih e' (NameMap.mem_of_mem_ofList member) read

/-- A plain value is what is read of its document. -/
theorem ofJson_toJson {v : Value} (plain : v.Plain) : ofJson v.toJson = some v := by
  induction plain with
  | text s => rfl
  | boolean b => rfl
  | @list items _ ih =>
    have all : items.filterMap (fun v => ofJson v.toJson) = items.filterMap some :=
      List.filterMap_congr ih
    rw [toJson, itemsToJson_eq_map, ofJson_array, List.filterMap_map]
    exact congrArg (fun l => some (list l)) (all.trans List.filterMap_some)
  | @struct fields ordered _ ih =>
    have byName : (fields.map fun e => (e.1, e.2.toJson)).Pairwise fun a b => a.1 < b.1 :=
      List.pairwise_map.2 (ordered.imp Text.lt_iff_bytes_lt.2)
    have all : fields.filterMap (fun e => (ofJson e.2.toJson).map (e.1, ·)) =
        fields.filterMap some :=
      List.filterMap_congr fun e listed => by rw [ih e listed, Option.map_some]
    rw [toJson, fieldsToJson_eq_map, ofJson_object, NameMap.entries_ofList byName,
      List.filterMap_map]
    exact congrArg (fun l => some (struct l)) (all.trans List.filterMap_some)

/-- Documents that are normalised to the same are read as the same request. -/
theorem ofJson_eq_of_normalise_eq {j j' : Json}
    (same : j.byName.normalise = j'.byName.normalise) : ofJson j = ofJson j' := by
  have null : j.byName.isNull = j'.byName.isNull := by
    rw [← Json.isNull_normalise, same, Json.isNull_normalise]
  have documents : (ofJson j).map toJson = (ofJson j').map toJson := by
    rw [map_toJson_ofJson, map_toJson_ofJson, Json.kept, Json.kept, null, same]
  -- A value is plain if it is read, and then its document tells what it is.
  cases read : ofJson j with
  | none =>
    rw [read] at documents
    exact (Option.map_eq_none_iff.1 documents.symm).symm
  | some v =>
    rw [read, Option.map_some] at documents
    obtain ⟨w, read', document⟩ := Option.map_eq_some_iff.1 documents.symm
    rw [read', ← ofJson_toJson (plain_of_ofJson read), ← document,
      ofJson_toJson (plain_of_ofJson read')]

/-- Reading a request leaves out the nulls of its document, takes numbers as their texts, and loses
nothing else.  What is read has a document, which is the document that was read as kept by name,
normalised; a plain value is read back from its own document; and a program does the same for two
documents that are normalised to the same. -/
theorem ofJson_normalises :
    ofJson .null = none ∧
    (∀ j : Json, j ≠ .null →
      ∃ v, ofJson j = some v ∧ v.Plain ∧ v.toJson = j.byName.normalise) ∧
    (∀ j : Json, j.InNameOrder → j.byName = j) ∧
    (∀ v : Value, v.Plain → ofJson v.toJson = some v) ∧
    ∀ (p : Program) (declared : Bool) (j j' : Json), j.byName.normalise = j'.byName.normalise →
      p.serialize declared (ofJson j) = p.serialize declared (ofJson j') := by
  refine ⟨rfl, ?_, fun j => Json.byName_of_inNameOrder, fun v => ofJson_toJson, ?_⟩
  · intro j notNull
    have left := map_toJson_ofJson j
    have present : j.byName.isNull = false := by
      rw [Json.isNull_byName, ← Bool.not_eq_true, Json.isNull_iff]
      exact notNull
    rw [Json.kept, present] at left
    obtain ⟨v, read, document⟩ := Option.map_eq_some_iff.1 left
    exact ⟨v, read, plain_of_ofJson read, document⟩
  · intro p declared j j' same
    rw [ofJson_eq_of_normalise_eq same]

/-- A request with a null field, a null item and a number, and with its fields in no order. -/
def photosDocument : Json :=
  .object [
    ("Tags", .array [.string "a", .null, .number (.integer 3)]), ("Owner", .null),
    ("Bucket", .string "photos")]

/-- What is read of that request. -/
def photos : Value := .struct [("Bucket", .text "photos"), ("Tags", .list [.text "a", .text "3"])]

theorem ofJson_normalises_photos :
    photosDocument ≠ .null ∧ ofJson photosDocument = some photos ∧ photos.Plain ∧
    photos.toJson = photosDocument.byName.normalise ∧ ofJson photos.toJson = some photos ∧
    photosDocument.byName.InNameOrder ∧ photosDocument.byName.byName = photosDocument.byName ∧
    photosDocument.byName.normalise = photos.toJson.byName.normalise ∧
    ∀ (p : Program) (declared : Bool),
      p.serialize declared (ofJson photosDocument) = p.serialize declared (ofJson photos.toJson) := by
  have present : photosDocument ≠ .null := nofun
  have ordered := photosDocument.inNameOrder_byName
  have same : photosDocument.byName.normalise = photos.toJson.byName.normalise := by rfl
  obtain ⟨-, reads, keeps, back, serializes⟩ := ofJson_normalises
  obtain ⟨v, read, plain, document⟩ := reads photosDocument present
  have isPhotos : ofJson photosDocument = some photos := by rfl
  cases isPhotos.symm.trans read
  exact ⟨present, read, plain, document, back photos plain, ordered, keeps _ ordered, same,
    fun p declared => serializes p declared _ _ same⟩

end WireBody.Request.Value
