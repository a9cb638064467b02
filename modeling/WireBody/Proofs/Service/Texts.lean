import WireBody.Proofs.Json.Kept
import WireBody.Proofs.Service.Parts

/-!
# Descriptions in texts

The text of a description is read along a layout, which looks for what the description needs while
the text is read.  So the layout must ask for no less than the readers of the description do, and for
no more.  A reader fails on every document that its layout refuses, and it reads what the layout
makes of any other document as it reads the document.  What a text is loaded as is therefore settled
by its document, up to the fault that is reported for a text that holds no description.

Main statement: `ofText_of_parse`.
-/

set_option autoImplicit false

namespace WireBody.Service.Description

open Json (Held HeldItems HeldEntries Keeps)

variable {j j' : Json}

/-! ## Records that are held -/

section

variable {Q : Part → Json → Json → Prop} {p : Part} {named : List (String × Layout)}

theorem names_eq_of_forall₂ {R : String → Json → Json → Prop} {entries entries' : List (String × Json)}
    (each : List.Forall₂ (fun e e' => e'.1 = e.1 ∧ R e.1 e.2 e'.2) entries entries') :
    entries'.map (·.1) = entries.map (·.1) := by
  induction each with
  | nil => rfl
  | cons first _ ih => rw [List.map_cons, List.map_cons, ih, first.1]

theorem rel_lookup_of_forall₂ {R : String → Json → Json → Prop}
    {entries entries' : List (String × Json)}
    (each : List.Forall₂ (fun e e' => e'.1 = e.1 ∧ R e.1 e.2 e'.2) entries entries') (n : String) :
    Option.Rel (R n) (entries.lookup n) (entries'.lookup n) := by
  induction each with
  | nil => exact .none
  | @cons e e' _ _ first _ ih =>
    obtain ⟨name, v⟩ := e
    obtain ⟨name', v'⟩ := e'
    obtain ⟨rfl, value⟩ := first
    rw [lookup_cons_ite, lookup_cons_ite]
    split
    · rename_i same
      exact .some (same ▸ value)
    · exact ih

/-- The same names are repeated under the same names. -/
theorem repeated_eq_of_names {entries entries' : List (String × Json)}
    (same : entries'.map (·.1) = entries.map (·.1)) :
    Record.repeated entries' = Record.repeated entries := by
  have counted (l : List (String × Json)) (n : String) :
      (l.countP fun e => e.1 = n) = (l.map (·.1)).countP (· = n) := by
    rw [List.countP_map]
    rfl
  funext n
  rw [Record.repeated, Record.repeated, counted, counted, same]

theorem sameRecord_of_heldItems {items items' : List Json}
    (values : ∀ e ∈ named, ∀ v v', Held e.2 v (some v') → Q (p.field e.1) v v')
    (held : HeldItems (.fields named) 0 items (some items')) :
    SameRecord Q p (named.map (·.1)) (.array items) (.array items') := by
  obtain ⟨length, each⟩ := Json.heldItems_some held
  by_cases surplus : (named.map (·.1)).length < items.length
  · exact .neither (f := .mismatched) (if_pos surplus) (if_pos (length ▸ surplus))
  · refine .both (if_neg surplus) (if_neg (length ▸ surplus)) ⟨rfl, fun n _ => ?_⟩
    refine rel_lookup_of_forall₂ (R := fun n => Q (p.field n)) ?_ n
    refine List.forall₂_iff_get.2 ⟨by simp [length], fun k there there' => ?_⟩
    simp only [List.get_eq_getElem, List.getElem_zip, List.getElem_map]
    rw [List.length_zip] at there there'
    obtain ⟨item, v', part, found', value⟩ := each k _ (List.getElem?_eq_getElem (by omega))
    obtain ⟨e, listed, rfl⟩ := Option.map_eq_some_iff.1 part
    obtain ⟨inside, rfl⟩ := List.getElem?_eq_some_iff.1 listed
    obtain ⟨inside', rfl⟩ := List.getElem?_eq_some_iff.1 found'
    simp only [Nat.zero_add] at value ⊢
    exact ⟨trivial, values _ (List.getElem_mem _) _ _ value⟩

theorem sameRecord_of_heldEntries {entries entries' : List (String × Json)}
    (values : ∀ e ∈ named, ∀ v v', Held e.2 v (some v') → Q (p.field e.1) v v')
    (held : HeldEntries (.fields named) [] entries (some entries')) :
    SameRecord Q p (named.map (·.1)) (.object entries) (.object entries') := by
  have each := Json.heldEntries_some held
  have repeats := repeated_eq_of_names
    (names_eq_of_forall₂ (R := fun n v v' => Held (Layout.entry (.fields named) n) v (some v')) each)
  cases again : (named.map (·.1)).any (Record.repeated entries) with
  | true => exact .neither (f := .mismatched) (if_pos again) (if_pos (repeats ▸ again))
  | false =>
    refine .both (if_neg (Bool.not_eq_true _ ▸ again))
      (if_neg (Bool.not_eq_true _ ▸ repeats ▸ again)) ⟨rfl, fun n known => ?_⟩
    rw [Record.lookup_filterMap _ known, Record.lookup_filterMap _ known]
    have related := rel_lookup_of_forall₂
      (R := fun n v v' => Held (Layout.entry (.fields named) n) v (some v')) each n
    generalize entries.lookup n = x, entries'.lookup n = x' at related ⊢
    cases related with
    | none => exact .none
    | @some v v' value =>
      obtain ⟨e, listed, rfl⟩ := List.mem_map.1 known
      obtain ⟨l, found⟩ : ∃ l, named.lookup e.1 = some l :=
        Option.isSome_iff_exists.1 (List.lookup_isSome_iff.2 ⟨e, listed, beq_self_eq_true _⟩)
      rw [Layout.entry, found] at value
      exact .some (values _ (mem_of_lookup found) v v' value)

/-- What a record is held as is a record of the same form, its fields held as its own. -/
theorem sameRecord_of_held
    (values : ∀ e ∈ named, ∀ v v', Held e.2 v (some v') → Q (p.field e.1) v v')
    (held : Held (.fields named) j (some j')) : SameRecord Q p (named.map (·.1)) j j' := by
  rcases Json.structured_of_held .fields rfl held with
    ⟨items, items', rfl, rfl, -, each⟩ | ⟨entries, entries', rfl, rfl, each⟩
  · exact sameRecord_of_heldItems values each
  · exact sameRecord_of_heldEntries values each

theorem not_null_of_held (held : Held (.fields named) j (some j')) : j ≠ .null ∧ j' ≠ .null := by
  rcases Json.structured_of_held .fields rfl held with
    ⟨_, _, rfl, rfl, -, -⟩ | ⟨_, _, rfl, rfl, -⟩
  all_goals exact ⟨Json.noConfusion, Json.noConfusion⟩

end

/-! ## Records that are refused -/

section

variable {named : List (String × Layout)}

theorem repeated_append {earlier later : List (String × Json)} {name : String} {v : Json}
    (among : name ∈ earlier.map (·.1)) :
    Record.repeated (earlier ++ (name, v) :: later) name = true := by
  obtain ⟨e, listed, rfl⟩ := List.mem_map.1 among
  have first : 0 < earlier.countP fun e' => e'.1 = e.1 :=
    List.countP_pos_iff.2 ⟨e, listed, decide_eq_true rfl⟩
  rw [Record.repeated, List.countP_append, List.countP_cons, if_pos (decide_eq_true rfl)]
  exact decide_eq_true (by omega)

theorem lookup_zip {names : List String} (distinct : names.Nodup) {items : List Json} {k : Nat}
    {n : String} {v : Json} (name : names[k]? = some n) (item : items[k]? = some v) :
    (names.zip items).lookup n = some v := by
  have zipped : (names.zip items).map (·.1) = names.take (min names.length items.length) := by
    rw [List.zip_eq_zip_take_min, List.map_fst_zip]
    simp
  refine lookup_of_mem (e := (n, v)) ?_
    (List.mem_of_getElem? (List.getElem?_zip_eq_some.2 ⟨name, item⟩))
  exact zipped ▸ distinct.sublist (List.take_sublist _ _)

theorem lookup_append_of_new {earlier later : List (String × Json)} {name : String} {v : Json}
    (new : name ∉ earlier.map (·.1)) : (earlier ++ (name, v) :: later).lookup name = some v := by
  refine List.lookup_eq_some_iff.2 ⟨earlier, later, rfl, fun e listed => ?_⟩
  rw [bne_iff_ne]
  rintro rfl
  exact new (List.mem_map_of_mem listed)

theorem exists_field_of_refusedItems (distinct : (named.map (·.1)).Nodup) {items : List Json}
    (refused : HeldItems (.fields named) 0 items none)
    (enough : ¬ (named.map (·.1)).length < items.length) :
    ∃ e ∈ named, ∃ v, ((named.map (·.1)).zip items).lookup e.1 = some v ∧ Held e.2 v none := by
  obtain ⟨k, v, found, value⟩ := Json.heldItems_none refused
  have there : k < named.length := by
    have within := (List.getElem?_eq_some_iff.1 found).1
    rw [List.length_map] at enough
    omega
  refine ⟨named[k], List.getElem_mem there, v, lookup_zip distinct ?_ found, value _ ?_⟩
  · rw [List.getElem?_map, List.getElem?_eq_getElem there, Option.map_some]
  · rw [Nat.zero_add, Layout.item?, List.getElem?_eq_getElem there, Option.map_some]

theorem exists_field_of_refusedEntries {entries : List (String × Json)}
    (refused : HeldEntries (.fields named) [] entries none)
    (once : ¬ (named.map (·.1)).any (Record.repeated entries) = true) :
    ∃ e ∈ named, ∃ v, entries.lookup e.1 = some v ∧ Held e.2 v none := by
  obtain ⟨earlier, name, v, later, rfl, why⟩ := Json.heldEntries_none refused
  cases listed : named.lookup name with
  | none =>
    -- What is no field stands as often as it likes, and is passed over.
    rw [Layout.onlyOnce, Layout.entry, listed] at why
    rcases why with ⟨impossible, -⟩ | value
    · cases impossible
    · exact absurd value Json.not_refused_ignored
  | some l =>
    have known : name ∈ named.map (·.1) := List.mem_map_of_mem (mem_of_lookup listed)
    have new : name ∉ earlier.map (·.1) := fun among =>
      once (List.any_eq_true.2 ⟨name, known, repeated_append among⟩)
    rcases why with ⟨-, among⟩ | value
    · exact absurd among new
    · rw [Layout.entry, listed] at value
      exact ⟨(name, l), mem_of_lookup listed, v, lookup_append_of_new new, value⟩

/-- A document that is refused is no record, or one of its fields is refused. -/
theorem exists_field_of_refused (distinct : (named.map (·.1)).Nodup)
    (refused : Held (.fields named) j none) {r : Record}
    (record : Record.ofJson (named.map (·.1)) j = .ok r) :
    ∃ e ∈ named, ∃ v, r.given.lookup e.1 = some v ∧ Held e.2 v none := by
  rcases Json.refused_cases .fields refused with
    ⟨isScalar, -⟩ | ⟨items, rfl, each⟩ | ⟨entries, rfl, each⟩
  · cases j <;> first | cases record | cases isScalar
  · have enough : ¬ (named.map (·.1)).length < items.length := fun surplus => by
      cases (if_pos surplus).symm.trans record
    obtain ⟨e, listed, v, found, value⟩ := exists_field_of_refusedItems distinct (each rfl) enough
    refine ⟨e, listed, v, ?_, value⟩
    rw [Record.lookup_of_ofJson record (List.mem_map_of_mem listed)]
    exact found
  · have once : ¬ (named.map (·.1)).any (Record.repeated entries) = true := fun again => by
      cases (if_pos again).symm.trans record
    obtain ⟨e, listed, v, found, value⟩ := exists_field_of_refusedEntries (each rfl) once
    refine ⟨e, listed, v, ?_, value⟩
    rw [Record.lookup_of_ofJson record (List.mem_map_of_mem listed)]
    exact found

end

/-! ## Readers that fail with their layout -/

section

variable {α : Type} {l : Layout} {d : Json → Except Fault α}

/-- The reader fails on what the layout refuses. -/
def FailsOn (l : Layout) (d : Json → Except Fault α) : Prop :=
  ∀ j, Held l j none → ∀ a, d j ≠ .ok a

theorem failsOn_scalar (arrays : ∀ items a, d (.array items) ≠ .ok a)
    (objects : ∀ entries a, d (.object entries) ≠ .ok a) : FailsOn .scalar d := by
  intro j refused a
  rcases Json.refused_cases .scalar refused with ⟨-, impossible⟩ | ⟨items, rfl, -⟩ | ⟨entries, rfl, -⟩
  · cases impossible
  · exact arrays items a
  · exact objects entries a

/-- A layout may test a value in a way that the reader does not mind. -/
theorem FailsOn.tested (fails : FailsOn l d) {accepts : Json → Bool}
    (passes : ∀ j j', Held l j (some j') → ∀ a, d j = .ok a → accepts j' = true) :
    FailsOn (.tested l accepts) d := by
  intro j refused a read
  rcases Json.refused_of_tested refused with refused | ⟨j', held, fails⟩
  · exact fails j refused a read
  · cases (passes j j' held a read).symm.trans fails

theorem FailsOn.orNull (fails : FailsOn l d) : FailsOn (.orNull l) (Record.orNull d) := by
  intro j refused a read
  obtain ⟨given, refused⟩ := Json.refused_of_orNull refused
  rcases Record.cases_of_orNull read with ⟨null, -⟩ | ⟨b, taken, -⟩
  · exact given null
  · exact fails j refused b taken

theorem FailsOn.entries {e : String → Json → Except Fault α} {each : Layout}
    (fails : ∀ key, FailsOn each (e key)) : FailsOn (.entries each) (Json.asTableOf e) := by
  intro j refused table read
  obtain ⟨entries, all, rfl, -, readAll⟩ := entries_of_asTableOf read
  rcases Json.refused_cases .entries refused with ⟨isScalar, -⟩ | ⟨_, isArray, -⟩ | ⟨_, same, refused⟩
  · cases isScalar
  · cases isArray
  · cases same
    obtain ⟨earlier, name, v, later, rfl, ⟨impossible, -⟩ | value⟩ :=
      Json.heldEntries_none (refused rfl)
    · cases impossible
    · obtain ⟨b, -, taken⟩ :=
        exists_of_mem_left readAll (List.mem_append_right earlier List.mem_cons_self)
      obtain ⟨a, taken, -⟩ := map_eq_ok_iff.1 taken
      exact fails name v value a taken

/-- A reader of a record fails with its layout if no field that is refused can be read. -/
theorem failsOn_fields {named : List (String × Layout)} (distinct : (named.map (·.1)).Nodup)
    {k : Record → Except Fault α}
    (each : ∀ e ∈ named, ∀ r v, r.given.lookup e.1 = some v → Held e.2 v none →
      ∀ a, k r ≠ .ok a) :
    FailsOn (.fields named) fun j => Record.ofJson (named.map (·.1)) j >>= k := by
  intro j refused a read
  obtain ⟨r, record, read⟩ := bind_eq_ok_iff.1 read
  obtain ⟨e, listed, v, found, value⟩ := exists_field_of_refused distinct refused record
  exact each e listed r v found value a read

section

variable {r : Record} {name : String} {v : Json}

theorem FailsOn.needed (fails : FailsOn l d) (found : r.given.lookup name = some v)
    (refused : Held l v none) (a : α) : r.needed name d ≠ .ok a := by
  unfold Record.needed
  rw [found]
  exact fails v refused a

theorem FailsOn.defaulted (fails : FailsOn l d) (found : r.given.lookup name = some v)
    (refused : Held l v none) (default a : α) : r.defaulted name default d ≠ .ok a := by
  unfold Record.defaulted
  rw [found]
  exact fails v refused a

theorem FailsOn.omittable (fails : FailsOn l d) (found : r.given.lookup name = some v)
    (refused : Held (.orNull l) v none) (a : Option α) : r.omittable name d ≠ .ok a :=
  fails.orNull.defaulted found refused none a

theorem FailsOn.optional (fails : FailsOn l d) (found : r.given.lookup name = some v)
    (refused : Held (.orNull l) v none) (a : Option α) : r.optional name d ≠ .ok a := by
  unfold Record.optional
  rw [found]
  exact fails.orNull v refused a

end

end

/-! ## Texts and metadata -/

theorem failsOn_text : FailsOn textLayout Json.asString := by
  have scalar : FailsOn .scalar Json.asString :=
    failsOn_scalar (fun _ _ read => by cases read) fun _ _ read => by cases read
  refine scalar.tested fun j j' held a read => ?_
  rw [Json.keeps_scalar j j' held, read]
  rfl

theorem keeps_text : Keeps textLayout := Json.keeps_scalar.tested _

theorem metadata_eq_of_held (held : Held metadataLayout j (some j')) : metadata j = metadata j' := by
  refine metadata_congr (sameRecord_of_held (fun e listed v v' value => ?_) held)
  simp only [metadataFields, List.zip_cons_cons, List.zip_nil_right, List.mem_cons,
    List.not_mem_nil, or_false] at listed
  rcases listed with rfl | rfl | rfl
  · exact (keeps_text v v' value).symm
  · exact (keeps_text.orNull v v' value).symm
  · exact (keeps_text.orNull v v' value).symm

theorem failsOn_metadata : FailsOn metadataLayout metadata := by
  refine failsOn_fields (by decide) fun e listed r v found refused m read => ?_
  obtain ⟨protocol, protocolRead, read⟩ := bind_eq_ok_iff.1 read
  obtain ⟨serviceId, serviceIdRead, read⟩ := bind_eq_ok_iff.1 read
  obtain ⟨apiVersion, apiVersionRead, -⟩ := bind_eq_ok_iff.1 read
  simp only [metadataFields, List.zip_cons_cons, List.zip_nil_right, List.mem_cons,
    List.not_mem_nil, or_false] at listed
  rcases listed with rfl | rfl | rfl
  · exact failsOn_text.defaulted found refused "" protocol protocolRead
  · exact failsOn_text.omittable found refused serviceId serviceIdRead
  · exact failsOn_text.omittable found refused apiVersion apiVersionRead

/-! ## Operations -/

theorem reference_eq_of_held (held : Held (.fields (referenceFields.zip [textLayout])) j (some j')) :
    reference j = reference j' := by
  refine reference_congr (sameRecord_of_held (fun e listed v v' value => ?_) held)
  simp only [referenceFields, List.zip_cons_cons, List.zip_nil_right, List.mem_cons,
    List.not_mem_nil, or_false] at listed
  subst listed
  exact (keeps_text v v' value).symm

theorem failsOn_reference : FailsOn referenceLayout reference := by
  have record : FailsOn (.fields (referenceFields.zip [textLayout])) reference := by
    refine failsOn_fields (by decide) fun e listed r v found refused target read => ?_
    simp only [referenceFields, List.zip_cons_cons, List.zip_nil_right, List.mem_cons,
      List.not_mem_nil, or_false] at listed
    subst listed
    exact failsOn_text.needed found refused target read
  refine record.tested fun j j' held target read => ?_
  rw [← reference_eq_of_held held, read]
  rfl

theorem alike_reference (held : Held (.orNull referenceLayout) j (some j')) :
    Alike .reference j j' := by
  rcases Json.held_of_orNull held with ⟨rfl, rfl⟩ | held
  · exact .refl _ _
  · have held := Json.held_of_tested held
    obtain ⟨given, given'⟩ := not_null_of_held held
    exact Record.orNull_congr (reference_eq_of_held held) (iff_of_false given given')

/-- Whether an operation can be read does not depend on its key. -/
theorem operation_ok_of_ok {key : String} {o : Operation} (read : operation key j = .ok o)
    (key' : String) : (operation key' j).isOk = true := by
  unfold operation at read
  obtain ⟨r, record, read⟩ := bind_eq_ok_iff.1 read
  obtain ⟨name, nameRead, read⟩ := bind_eq_ok_iff.1 read
  obtain ⟨input, inputRead, -⟩ := bind_eq_ok_iff.1 read
  rw [operation, record, ok_bind, nameRead, ok_bind, inputRead]
  rfl

theorem operation_eq_of_held
    (held : Held (.fields (operationFields.zip [.orNull textLayout, .orNull referenceLayout])) j
      (some j')) (key : String) : operation key j = operation key j' := by
  refine operation_congr (sameRecord_of_held (fun e listed v v' value => ?_) held) key
  simp only [operationFields, List.zip_cons_cons, List.zip_nil_right, List.mem_cons,
    List.not_mem_nil, or_false] at listed
  rcases listed with rfl | rfl
  · exact (keeps_text.orNull v v' value).symm
  · exact alike_reference value

theorem failsOn_operation (key : String) : FailsOn operationLayout (operation key) := by
  have record : FailsOn (.fields (operationFields.zip [.orNull textLayout, .orNull referenceLayout]))
      (operation key) := by
    refine failsOn_fields (by decide) fun e listed r v found refused o read => ?_
    obtain ⟨name, nameRead, read⟩ := bind_eq_ok_iff.1 read
    obtain ⟨input, inputRead, -⟩ := bind_eq_ok_iff.1 read
    simp only [operationFields, List.zip_cons_cons, List.zip_nil_right, List.mem_cons,
      List.not_mem_nil, or_false] at listed
    rcases listed with rfl | rfl
    · exact failsOn_text.optional found refused name nameRead
    · exact failsOn_reference.optional found refused input inputRead
  refine record.tested fun j j' held o read => ?_
  rw [operation_eq_of_held held] at read
  exact operation_ok_of_ok read ""

/-- A table is read alike entry by entry. -/
theorem asTableOf_eq_of_forall₂ {α : Type} {d : String → Json → Except Fault α}
    {entries entries' : List (String × Json)}
    (each : List.Forall₂ (fun e e' => e'.1 = e.1 ∧ d e.1 e.2 = d e.1 e'.2) entries entries') :
    Json.asTableOf d (.object entries) = Json.asTableOf d (.object entries') := by
  refine congrArg (Except.map collect) ?_
  induction each with
  | nil => rfl
  | cons first _ ih => rw [List.mapM_cons, List.mapM_cons, ih, first.2, first.1]

theorem alike_operations (held : Held (.entries operationLayout) j (some j')) :
    Alike .operations j j' := by
  rcases Json.structured_of_held .entries rfl held with
    ⟨_, _, -, -, impossible, -⟩ | ⟨entries, entries', rfl, rfl, each⟩
  · cases impossible
  · refine congrArg _ (asTableOf_eq_of_forall₂ ((Json.heldEntries_some each).imp ?_))
    exact fun _ _ related => ⟨related.1, operation_eq_of_held (Json.held_of_tested related.2) _⟩

/-! ## Shapes -/

theorem failsOn_shapeType : FailsOn (.takenBy .scalar shapeType) shapeType := by
  have scalar : FailsOn .scalar shapeType :=
    failsOn_scalar (fun _ _ read => by cases read) fun _ _ read => by cases read
  refine scalar.tested fun j j' held a read => ?_
  rw [Json.keeps_scalar j j' held, read]
  rfl

theorem keeps_shape : Keeps shapeLayout :=
  ((Json.keeps_scalar.tested _).tagged).tested _

theorem shapeOfType_renamed (name name' : String) (type : ShapeType) (j : Json) :
    shapeOfType name type j = (shapeOfType name' type j).map fun s => { s with name } := by
  cases type with
  | struct => simp only [shapeOfType, structureShape, map_bind_eq]; rfl
  | list => simp only [shapeOfType, listShape, map_bind_eq]; rfl
  | map => simp only [shapeOfType, mapShape, map_bind_eq]; rfl
  | scalar => simp only [shapeOfType, scalarShape, map_bind_eq]; rfl

/-- A shape is read in the same way whatever its name is. -/
theorem shape_renamed (name name' : String) (j : Json) :
    shape name j = (shape name' j).map fun s => { s with name } := by
  unfold shape
  split
  · split
    · rw [map_bind_eq]
      exact congrArg _ (funext fun type => shapeOfType_renamed name name' type _)
    · rfl
  · rw [map_bind_eq]
    exact congrArg _ (funext fun type => shapeOfType_renamed name name' type _)
  · rfl

/-- A shape that can be read has one tag, which is a type. -/
theorem tag_of_shape {name : String} {s : Shape} (read : shape name j = .ok s) :
    ∃ tag type, tag? j = some tag ∧ shapeType tag = .ok type := by
  unfold shape at read
  split at read
  · split at read
    · rename_i single
      obtain ⟨type, typed, -⟩ := bind_eq_ok_iff.1 read
      exact ⟨_, type, by simp only [tag?, single], typed⟩
    · cases read
  · obtain ⟨type, typed, -⟩ := bind_eq_ok_iff.1 read
    exact ⟨_, type, rfl, typed⟩
  · cases read

/-- The tag of an object stands in it once. -/
theorem eq_of_tag {earlier later : List (String × Json)} {v tag : Json}
    (tagged : tag? (.object (earlier ++ ("type", v) :: later)) = some tag) :
    "type" ∉ earlier.map (·.1) ∧ v = tag := by
  unfold tag? at tagged
  simp only [List.filter_append, List.filter_cons, decide_true, ↓reduceIte] at tagged
  split at tagged
  · rename_i single
    cases tagged
    rw [List.append_eq_singleton_iff] at single
    rcases single with ⟨none, one⟩ | ⟨-, impossible⟩
    · refine ⟨fun among => ?_, congrArg Prod.snd (List.cons.inj one).1⟩
      obtain ⟨e, listed, named⟩ := List.mem_map.1 among
      exact List.filter_eq_nil_iff.1 none e listed (decide_eq_true named)
    · cases impossible
  · cases tagged

/-- A document that is refused has no tag, more than one, or one that is refused. -/
theorem tag_refused {value : Layout} (refused : Held (.tagged "type" value) j none) {tag : Json}
    (tagged : tag? j = some tag) : Held value tag none := by
  rcases Json.refused_cases .tagged refused with
    ⟨isScalar, -⟩ | ⟨items, rfl, each⟩ | ⟨entries, rfl, each⟩
  · cases j <;> first | cases tagged | cases isScalar
  · obtain ⟨k, v, found, refused⟩ := Json.heldItems_none (each rfl)
    cases items with
    | nil => cases found
    | cons first rest =>
      cases tagged
      cases k with
      | zero =>
        cases found
        exact refused value rfl
      | succ k =>
        rw [Nat.zero_add] at refused
        cases Json.eq_of_held_whole (refused .whole rfl) rfl
  · obtain ⟨earlier, name, v, later, rfl, why⟩ := Json.heldEntries_none (each rfl)
    simp only [Layout.onlyOnce, Layout.entry, decide_eq_true_eq] at why
    by_cases isTag : name = "type"
    · subst isTag
      obtain ⟨new, rfl⟩ := eq_of_tag tagged
      rcases why with ⟨-, among⟩ | refused
      · exact absurd among new
      · exact refused
    · rw [if_neg isTag] at why
      rcases why with ⟨isTag', -⟩ | refused
      · exact absurd isTag' isTag
      · cases Json.eq_of_held_whole refused rfl

theorem failsOn_shape (name : String) : FailsOn shapeLayout (shape name) := by
  have tagged : FailsOn (.tagged "type" (.takenBy .scalar shapeType)) (shape name) := by
    intro j refused s read
    obtain ⟨tag, type, given, typed⟩ := tag_of_shape read
    exact failsOn_shapeType tag (tag_refused refused given) type typed
  refine tagged.tested fun j j' held s read => ?_
  rw [((Json.keeps_scalar.tested _).tagged) j j' held]
  rw [shape_renamed name ""] at read
  obtain ⟨s', taken, -⟩ := map_eq_ok_iff.1 read
  rw [taken]
  rfl

/-! ## Descriptions -/

theorem ofJson_eq_of_held (held : Held layout j (some j')) : Graph.ofJson j = Graph.ofJson j' := by
  refine ofJson_congr (sameRecord_of_held (fun e listed v v' value => ?_) held)
  simp only [topFields, List.zip_cons_cons, List.zip_nil_right, List.mem_cons,
    List.not_mem_nil, or_false] at listed
  rcases listed with rfl | rfl | rfl
  · exact metadata_eq_of_held value
  · exact alike_operations value
  · exact keeps_shape.entries v v' value ▸ .refl _ _

theorem failsOn_description : FailsOn layout Graph.ofJson := by
  refine failsOn_fields (by decide) fun e listed r v found refused g read => ?_
  obtain ⟨metadata, metadataRead, read⟩ := bind_eq_ok_iff.1 read
  obtain ⟨operations, operationsRead, read⟩ := bind_eq_ok_iff.1 read
  obtain ⟨shapes, shapesRead, -⟩ := bind_eq_ok_iff.1 read
  simp only [topFields, List.zip_cons_cons, List.zip_nil_right, List.mem_cons,
    List.not_mem_nil, or_false] at listed
  rcases listed with rfl | rfl | rfl
  · exact failsOn_metadata.defaulted found refused _ metadata metadataRead
  · exact (FailsOn.entries failsOn_operation).defaulted found refused _ operations operationsRead
  · exact (FailsOn.entries failsOn_shape).defaulted found refused _ shapes shapesRead

theorem direct_layout : Layout.Direct layout := by
  have text : Layout.Direct textLayout := .tested .scalar
  have metadata : Layout.Direct metadataLayout := .fields (by
    simp only [metadataFields, List.zip_cons_cons, List.zip_nil_right, List.forall_mem_cons]
    exact ⟨text, text.orNull, text.orNull, nofun⟩)
  have reference : Layout.Direct referenceLayout := .tested (.fields (by
    simp only [referenceFields, List.zip_cons_cons, List.zip_nil_right, List.forall_mem_cons]
    exact ⟨text, nofun⟩))
  have operation : Layout.Direct operationLayout := .tested (.fields (by
    simp only [operationFields, List.zip_cons_cons, List.zip_nil_right, List.forall_mem_cons]
    exact ⟨text.orNull, reference.orNull, nofun⟩))
  have shape : Layout.Direct shapeLayout := .tested (.tagged (.tested .scalar))
  refine .fields ?_
  simp only [topFields, List.zip_cons_cons, List.zip_nil_right, List.forall_mem_cons]
  exact ⟨metadata, operation.entries, shape.entries, nofun⟩

/-! ## Loading -/

/-- What a loading comes to; the fault of what holds no description is left out. -/
def outcome : Except LoadError Graph → Option (Except GraphError Graph)
  | .ok g => some (.ok g)
  | .error (.unsound e) => some (.error e)
  | .error (.undecodable _) => none

theorem eq_of_outcome {x y : Except LoadError Graph} (same : outcome x = outcome y)
    (decodable : ∀ f, y ≠ .error (.undecodable f)) : x = y := by
  rcases x with (f | e) | g <;> rcases y with (f' | e') | g'
  case error.undecodable.error.undecodable => exact absurd rfl (decodable f')
  all_goals cases same
  all_goals rfl

/-- A text is loaded as its document is. -/
theorem ofText_of_parse {text : String} (document : Json.parse text = .ok j) :
    outcome (Graph.ofText text) = outcome (Graph.load j) := by
  obtain ⟨o, held, read⟩ := Json.held_of_parse document direct_layout
  unfold Graph.ofText
  cases found : Json.read layout text with
  | ok j' =>
    rw [found] at read
    cases read
    simp only [Graph.load, ofJson_eq_of_held held]
  | error f =>
    rw [found] at read
    cases read
    cases decoded : Graph.ofJson j with
    | ok g => exact absurd decoded (failsOn_description j held g)
    | error f' => simp only [Graph.load, decoded, outcome]

/-- A text whose document is a description is loaded exactly as the document is. -/
theorem ofText_of_decoded {text : String} (document : Json.parse text = .ok j) {g : Graph}
    (decoded : Graph.ofJson j = .ok g) : Graph.ofText text = Graph.load j := by
  refine eq_of_outcome (ofText_of_parse document) fun f undecodable => ?_
  unfold Graph.load at undecodable
  rw [decoded] at undecodable
  simp only at undecodable
  split at undecodable <;> cases undecodable

end WireBody.Service.Description
