import WireBody.Compile.Member

/-!
# What a document carries

A document holds the members of its root, and what they hold in turn.  `Carries g root m s` says
that somewhere in a document of the structure `root` the member `m` stands for a value of shape `s`.
A flattened list passes its own member on to its items; the items of any other list are written as
the list's member for them.
-/

set_option autoImplicit false

namespace WireBody.Service

/-- The scalars that are written as text: texts and bytes. -/
def Scalar.isText : Scalar → Bool
  | .string | .blob => true
  | _ => false

/-- Whether a shape is written as text. -/
def Shape.isText (s : Shape) : Bool :=
  match s.kind with
  | .scalar k => k.isText
  | _ => false

/-- Whether a shape is a list. -/
def Shape.isList (s : Shape) : Bool :=
  match s.kind with
  | .list _ _ => true
  | _ => false

/-- Whether a shape is a list whose items have no element around them. -/
def Shape.isFlattened (s : Shape) : Bool :=
  match s.kind with
  | .list _ flattened => flattened
  | _ => false

theorem Shape.isText_iff {s : Shape} :
    s.isText = true ↔ ∃ k, s.kind = .scalar k ∧ k.isText = true := by
  unfold Shape.isText
  split
  · rename_i k isScalar
    simp [isScalar]
  · rename_i other
    simp only [Bool.false_eq_true, false_iff, not_exists, not_and]
    intro k isScalar
    exact absurd isScalar (other k)

theorem Shape.isList_iff {s : Shape} :
    s.isList = true ↔ ∃ item flattened, s.kind = .list item flattened := by
  unfold Shape.isList
  split
  · rename_i item flattened isList
    simp [isList]
  · rename_i other
    simp only [Bool.false_eq_true, false_iff, not_exists]
    exact other

theorem Shape.isList_eq_false_iff {s : Shape} :
    s.isList = false ↔ ∀ item flattened, s.kind ≠ .list item flattened := by
  rw [← Bool.not_eq_true, Shape.isList_iff]
  exact ⟨fun none item flattened isList => none ⟨item, flattened, isList⟩,
    fun other ⟨item, flattened, isList⟩ => other item flattened isList⟩

theorem Shape.not_list_of_isText {s : Shape} (isText : s.isText = true) : s.isList = false := by
  obtain ⟨k, isScalar, -⟩ := Shape.isText_iff.1 isText
  rw [Shape.isList, isScalar]

theorem Shape.not_flattened_of_not_list {s : Shape} (single : s.isList = false) :
    s.isFlattened = false := by
  unfold Shape.isFlattened
  split
  · rename_i isList
    exact absurd isList (Shape.isList_eq_false_iff.1 single _ _)
  · rfl

theorem Shape.fields?_eq_some_iff {s : Shape} {f : Fields} :
    s.fields? = some f ↔ s.kind = .struct f := by
  unfold Shape.fields?
  cases s.kind <;> simp

theorem Fields.mem_of_payloadMember? {f : Fields} {m : Member}
    (declared : f.payloadMember? = some m) : m ∈ f.members := by
  obtain ⟨name, -, found⟩ := Option.bind_eq_some_iff.1 declared
  exact List.mem_of_find?_eq_some found

theorem Member.asAttribute_of_named {m : Member} (named : m.name.isSome = true) :
    m.asAttribute = m.xmlAttribute := by
  rw [Member.asAttribute, named, Bool.and_true]

theorem Member.asAttribute_of_unnamed {m : Member} (unnamed : m.name = none) :
    m.asAttribute = false := by
  rw [Member.asAttribute, unnamed, Option.isSome_none, Bool.and_false]

/-- The member that the items of a list are written as. -/
def itemMember (m item : Member) (flattened : Bool) : Member := if flattened then m else item

/-- In a document of `root` the member `m` may stand for a value of shape `s`. -/
inductive Carries (g : Graph) (root : Fields) : Member → Shape → Prop
  | top {m : Member} {s : Shape} :
      m ∈ root.bodyMembers → g.shapes.get? m.target = some s → Carries g root m s
  | inside {m m' : Member} {s s' : Shape} {f : Fields} :
      Carries g root m s → s.kind = .struct f → m' ∈ f.bodyMembers →
      g.shapes.get? m'.target = some s' → Carries g root m' s'
  | item {m item : Member} {s element : Shape} {flattened : Bool} :
      Carries g root m s → s.kind = .list item flattened →
      g.shapes.get? item.target = some element →
      Carries g root (itemMember m item flattened) element

/-- Only shapes of the graph are carried. -/
theorem Carries.stored {g : Graph} {root : Fields} {m : Member} {s : Shape}
    (carried : Carries g root m s) : g.shapes.get? s.name = some s := by
  cases carried with
  | top _ found => exact g.shape_named found ▸ found
  | inside _ _ _ found => exact g.shape_named found ▸ found
  | item _ _ found => exact g.shape_named found ▸ found

/-- The members that a structure has in the body, with what they stand for. -/
def Fields.carried (g : Graph) (f : Fields) : List (Member × Shape) :=
  f.bodyMembers.filterMap fun m => (g.shapes.get? m.target).map (m, ·)

/-- What is carried inside a value of shape `s` that stands for `m`. -/
def carriedBy (g : Graph) (m : Member) (s : Shape) : List (Member × Shape) :=
  match s.kind with
  | .struct f => f.carried g
  | .list item flattened =>
    (g.shapes.get? item.target).toList.map fun element => (itemMember m item flattened, element)
  | _ => []

/-- A list that has what the root carries, and with each entry what is carried inside it, has all
that a document carries. -/
theorem mem_of_carries {g : Graph} {root : Fields} {l : List (Member × Shape)}
    (top : ∀ e ∈ root.carried g, e ∈ l) (closed : ∀ e ∈ l, ∀ e' ∈ carriedBy g e.1 e.2, e' ∈ l)
    {m : Member} {s : Shape} (carried : Carries g root m s) : (m, s) ∈ l := by
  have listed : ∀ {f : Fields} {m : Member} {s : Shape}, m ∈ f.bodyMembers →
      g.shapes.get? m.target = some s → (m, s) ∈ f.carried g := by
    intro f m s member found
    exact List.mem_filterMap.2 ⟨m, member, by rw [found, Option.map_some]⟩
  induction carried with
  | top member found => exact top _ (listed member found)
  | inside _ isStruct member found ih =>
    apply closed _ ih
    rw [carriedBy, isStruct]
    exact listed member found
  | item _ isList found ih =>
    apply closed _ ih
    simp only [carriedBy, isList, found, Option.toList_some, List.map_cons]
    exact List.mem_cons_self

/-- The structures of a document: the root and the structures that it carries. -/
inductive Holds (g : Graph) (root : Fields) : Fields → Prop
  | root : Holds g root root
  | carried {m : Member} {s : Shape} {f : Fields} :
      Carries g root m s → s.kind = .struct f → Holds g root f

/-- What the body members of a structure of the document stand for is carried. -/
theorem Holds.member {g : Graph} {root f : Fields} {m : Member} {s : Shape}
    (held : Holds g root f) (member : m ∈ f.bodyMembers)
    (found : g.shapes.get? m.target = some s) : Carries g root m s := by
  cases held with
  | root => exact .top member found
  | carried above isStruct => exact .inside above isStruct member found

end WireBody.Service
