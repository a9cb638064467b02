import WireBody.Proofs.Service.Loaded
import WireBody.Proofs.Service.Records

/-!
# What a document says

What the document of a member or of an operation says of it, told by the document alone: under which
name a field stands, what it may hold there, and what it means if it is left out or null.  What a
reader gives is what its document says.

Main statements: `memberOf_of_member` and `operationOf_of_operation`.
-/

set_option autoImplicit false

namespace WireBody.Service

/-! ## Fields -/

/-- The entries of an object, which may be left out. -/
def GivesEntries (v : Option Json) (entries : List (String × Json)) : Prop :=
  v = some (.object entries) ∨ v = none ∧ entries = []

/-- Some texts, which may be left out. -/
def GivesTexts (v : Option Json) (texts : List String) : Prop :=
  v = some (.array (texts.map .string)) ∨ v = none ∧ texts = []

/-- A switch, which is off if it is left out. -/
def GivesFlag (v : Option Json) (on : Bool) : Prop := v = some (.bool on) ∨ v = none ∧ on = false

/-- Something that documents can be, which may be null or left out. -/
def GivesOptional {α : Type} (Is : Json → α → Prop) (v : Option Json) (a : Option α) : Prop :=
  (∃ d b, v = some d ∧ a = some b ∧ Is d b) ∨ a = none ∧ (v = none ∨ v = some .null)

/-- A text, which may be null or left out. -/
def GivesText (v : Option Json) (text : Option String) : Prop :=
  GivesOptional (fun d s => d = .string s) v text

theorem GivesOptional.unique {α : Type} {Is : Json → α → Prop} {v : Option Json} {a b : Option α}
    (null : ∀ a, ¬ Is .null a) (same : ∀ d a b, Is d a → Is d b → a = b)
    (first : GivesOptional Is v a) (second : GivesOptional Is v b) : a = b := by
  rcases first with ⟨d, a, rfl, rfl, isA⟩ | ⟨rfl, nothing⟩
  · rcases second with ⟨_, b, given, rfl, isB⟩ | ⟨rfl, nothing⟩
    · cases given
      rw [same d a b isA isB]
    · rcases nothing with absent | given
      · cases absent
      · cases given
        exact absurd isA (null a)
  · rcases second with ⟨d, b, rfl, rfl, isB⟩ | ⟨rfl, -⟩
    · rcases nothing with absent | given
      · cases absent
      · cases given
        exact absurd isB (null b)
    · rfl

theorem GivesText.unique {v : Option Json} {s t : Option String} (first : GivesText v s)
    (second : GivesText v t) : s = t := by
  refine GivesOptional.unique (fun _ => nofun) (fun d s t isS isT => ?_) first second
  rw [isS] at isT
  exact Json.string.inj isT

section

variable {α : Type} {names : List String} {name : String} {j : Json} {r : Record}

theorem entries_of_defaulted {d : String → Json → Except Fault α}
    {table : List (String × α)} (read : Record.ofJson names j = .ok r) (known : name ∈ names)
    (given : r.defaulted name [] (Json.asTableOf d) = .ok table) :
    ∃ entries, GivesEntries (j.field names name) entries ∧
      Json.asTableOf d (.object entries) = .ok table := by
  rcases Record.field_of_defaulted read known given with ⟨absent, rfl⟩ | ⟨v, found, taken⟩
  · exact ⟨[], .inr ⟨absent, rfl⟩, rfl⟩
  · obtain ⟨entries, all, rfl, -, -⟩ := entries_of_asTableOf taken
    exact ⟨entries, .inl found, taken⟩

theorem texts_of_defaulted {texts : List String} (read : Record.ofJson names j = .ok r)
    (known : name ∈ names)
    (given : r.defaulted name [] (Json.asArrayOf Json.asString) = .ok texts) :
    GivesTexts (j.field names name) texts := by
  rcases Record.field_of_defaulted read known given with ⟨absent, rfl⟩ | ⟨v, found, taken⟩
  · exact .inr ⟨absent, rfl⟩
  · exact .inl (strings_of_asArrayOf taken ▸ found)

theorem flag_of_asBool {on : Bool} (read : Json.asBool j = .ok on) : j = .bool on := by
  unfold Json.asBool at read
  split at read
  · cases read
    rfl
  · cases read

theorem flag_of_defaulted {on : Bool} (read : Record.ofJson names j = .ok r) (known : name ∈ names)
    (given : r.defaulted name false Json.asBool = .ok on) : GivesFlag (j.field names name) on := by
  rcases Record.field_of_defaulted read known given with ⟨absent, rfl⟩ | ⟨v, found, taken⟩
  · exact .inr ⟨absent, rfl⟩
  · exact .inl (flag_of_asBool taken ▸ found)

variable {Is : Json → α → Prop} {d : Json → Except Fault α} {a : Option α}

theorem given_of_optional (sound : ∀ {v b}, d v = .ok b → Is v b)
    (read : Record.ofJson names j = .ok r) (known : name ∈ names)
    (given : r.optional name d = .ok a) : GivesOptional Is (j.field names name) a := by
  rcases Record.field_of_optional read known given with ⟨nothing, rfl⟩ | ⟨v, b, found, taken, rfl⟩
  · exact .inr ⟨rfl, nothing⟩
  · exact .inl ⟨v, b, found, rfl, sound taken⟩

theorem given_of_omittable (sound : ∀ {v b}, d v = .ok b → Is v b)
    (read : Record.ofJson names j = .ok r) (known : name ∈ names)
    (given : r.omittable name d = .ok a) : GivesOptional Is (j.field names name) a := by
  rcases Record.field_of_defaulted read known given with ⟨absent, rfl⟩ | ⟨v, found, taken⟩
  · exact .inr ⟨rfl, .inl absent⟩
  · rcases Record.cases_of_orNull taken with ⟨rfl, rfl⟩ | ⟨b, inner, rfl⟩
    · exact .inr ⟨rfl, .inr found⟩
    · exact .inl ⟨v, b, found, rfl, sound inner⟩

theorem string_of_needed {s : String} (read : Record.ofJson names j = .ok r) (known : name ∈ names)
    (given : r.needed name Json.asString = .ok s) : j.field names name = some (.string s) := by
  obtain ⟨v, found, taken⟩ := Record.field_of_needed read known given
  rw [found, string_of_asString taken]

end

/-! ## Members and operations -/

/-- A document is a location: its name, or an object with this name alone, which says nothing of
it. -/
def LocationOf (d : Json) (l : Location) : Prop :=
  d = .string l.name ∨ d = .object [(l.name, .null)] ∨ d = .object [(l.name, .object [])]

/-- A document is a namespace. -/
structure NamespaceOf (d : Json) (n : XmlNamespace) : Prop where
  uri : d.field Description.namespaceFields "uri" = some (.string n.uri)
  nsPrefix : GivesText (d.field Description.namespaceFields "prefix") n.nsPrefix

/-- A document says this of a member, whatever its name, and whether it is required or a payload. -/
structure MemberOf (d : Json) (m : Member) : Prop where
  target : d.field Description.memberFields "shape" = some (.string m.target)
  locationName : GivesText (d.field Description.memberFields "locationName") m.locationName
  /-- A member is in the body unless it is elsewhere. -/
  location : ∃ l, GivesOptional LocationOf (d.field Description.memberFields "location") l ∧
    m.location = l.getD .body
  xmlAttribute : GivesFlag (d.field Description.memberFields "xmlAttribute") m.xmlAttribute
  xmlNamespace :
    GivesOptional NamespaceOf (d.field Description.memberFields "xmlNamespace") m.xmlNamespace
  streaming : GivesFlag (d.field Description.memberFields "streaming") m.streaming

/-- A document names this shape. -/
def RefersTo (d : Json) (target : String) : Prop :=
  d.field Description.referenceFields "shape" = some (.string target)

/-- The document of a key names an operation: it may give a name, which else is the key. -/
def NamesOperation (key : String) (d : Json) (name : String) : Prop :=
  ∃ given, GivesText (d.field Description.operationFields "name") given ∧ given.getD key = name

/-- The document of a key is an operation. -/
structure OperationOf (key : String) (d : Json) (o : Operation) : Prop where
  name : NamesOperation key d o.name
  input : GivesOptional RefersTo (d.field Description.operationFields "input") o.input

theorem NamesOperation.unique {key name name' : String} {d : Json}
    (first : NamesOperation key d name) (second : NamesOperation key d name') : name = name' := by
  obtain ⟨given, gives, rfl⟩ := first
  obtain ⟨given', gives', rfl⟩ := second
  rw [gives.unique gives']

theorem not_refersTo_null (target : String) : ¬ RefersTo .null target := nofun

theorem RefersTo.unique {d : Json} {target target' : String} (first : RefersTo d target)
    (second : RefersTo d target') : target = target' := by
  have same := first.symm.trans second
  cases same
  rfl

/-- The document of a key is one operation at most. -/
theorem OperationOf.unique {key : String} {d : Json} {o o' : Operation}
    (first : OperationOf key d o) (second : OperationOf key d o') : o = o' := by
  have names : o.name = o'.name := first.name.unique second.name
  have inputs : o.input = o'.input :=
    GivesOptional.unique not_refersTo_null (fun _ _ _ => RefersTo.unique) first.input second.input
  cases o
  cases o'
  cases names
  cases inputs
  rfl

namespace Description

variable {j : Json}

theorem locationOf_of_location {l : Location} (read : location j = .ok l) : LocationOf j l := by
  -- In each form it is given by its name.
  unfold location at read
  split at read
  case h_4 => cases read
  all_goals
    split at read
    · rename_i found
      cases read
      rw [← Location.name_of_ofName? found]
      simp [LocationOf]
    · cases read

theorem namespaceOf_of_xmlNamespace {n : XmlNamespace} (read : xmlNamespace j = .ok n) :
    NamespaceOf j n := by
  unfold xmlNamespace at read
  obtain ⟨r, record, read⟩ := bind_eq_ok_iff.1 read
  obtain ⟨uri, uriRead, read⟩ := bind_eq_ok_iff.1 read
  obtain ⟨nsPrefix, prefixRead, read⟩ := bind_eq_ok_iff.1 read
  cases read
  constructor
  · exact string_of_needed record (by decide) uriRead
  · exact given_of_omittable string_of_asString record (by decide) prefixRead

/-- What is read as a member is what its document says of one, and belongs to no structure yet. -/
theorem memberOf_of_member {m : Member} (read : member j = .ok m) : m.Bare ∧ MemberOf j m := by
  unfold member at read
  obtain ⟨r, record, read⟩ := bind_eq_ok_iff.1 read
  obtain ⟨target, targetRead, read⟩ := bind_eq_ok_iff.1 read
  obtain ⟨locationName, nameRead, read⟩ := bind_eq_ok_iff.1 read
  obtain ⟨l, locationRead, read⟩ := bind_eq_ok_iff.1 read
  obtain ⟨xmlAttribute, attributeRead, read⟩ := bind_eq_ok_iff.1 read
  obtain ⟨xmlNamespace, namespaceRead, read⟩ := bind_eq_ok_iff.1 read
  obtain ⟨streaming, streamingRead, read⟩ := bind_eq_ok_iff.1 read
  cases read
  refine ⟨⟨rfl, rfl, rfl⟩, ?_⟩
  constructor
  · exact string_of_needed record (by decide) targetRead
  · exact given_of_optional string_of_asString record (by decide) nameRead
  · exact ⟨l, given_of_optional locationOf_of_location record (by decide) locationRead, rfl⟩
  · exact flag_of_defaulted record (by decide) attributeRead
  · exact given_of_optional namespaceOf_of_xmlNamespace record (by decide) namespaceRead
  · exact flag_of_defaulted record (by decide) streamingRead

theorem refersTo_of_reference {target : String} (read : reference j = .ok target) :
    RefersTo j target := by
  unfold reference at read
  obtain ⟨r, record, read⟩ := bind_eq_ok_iff.1 read
  exact string_of_needed record (by decide) read

/-- What is read as an operation is what its document says. -/
theorem operationOf_of_operation {key : String} {o : Operation} (read : operation key j = .ok o) :
    OperationOf key j o := by
  unfold operation at read
  obtain ⟨r, record, read⟩ := bind_eq_ok_iff.1 read
  obtain ⟨name, nameRead, read⟩ := bind_eq_ok_iff.1 read
  obtain ⟨input, inputRead, read⟩ := bind_eq_ok_iff.1 read
  cases read
  constructor
  · exact ⟨name, given_of_optional string_of_asString record (by decide) nameRead, rfl⟩
  · exact given_of_optional refersTo_of_reference record (by decide) inputRead

end Description

end WireBody.Service
