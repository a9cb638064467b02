import WireBody.Proofs.Entries
import WireBody.Proofs.Request.Parts
import WireBody.Proofs.Service.Carries

/-!
# What a body sees of a request

A body looks into a structure through its body members and into a list item by item, and of all
other values it sees the value itself.  `Agrees` says that two values are one to this view, and
`Unseen` is a change that it misses: to the order of fields, or to a field that no member stands
for.
-/

set_option autoImplicit false

namespace WireBody.Request

open WireBody.Service

/-! ## Looking into values -/

/-- A value without what is in it. -/
def Value.shell : Value → Value
  | .struct _ => .struct []
  | .list _ => .list []
  | v => v

theorem Value.kind_shell (v : Value) : v.shell.kind = v.kind := by
  cases v <;> rfl

theorem Value.kind_eq_of_shell_eq {v w : Value} (same : v.shell = w.shell) : v.kind = w.kind := by
  rw [← v.kind_shell, same, w.kind_shell]

/-- Whether a shape looks into a value: a structure into structures, and a list into lists. -/
def Value.openedBy (v : Value) (s : Shape) : Bool :=
  match s.kind, v with
  | .struct _, .struct _ => true
  | .list _ _, .list _ => true
  | _, _ => false

theorem Value.kind_ne_struct_of_unopened {s : Shape} {f : Fields} {v : Value}
    (isStruct : s.kind = .struct f) (unopened : v.openedBy s = false) : v.kind ≠ .struct := by
  rintro given
  obtain ⟨fields, rfl⟩ := Value.kind_eq_struct_iff.1 given
  simp [Value.openedBy, isStruct] at unopened

theorem Value.kind_ne_list_of_unopened {s : Shape} {item : Member} {flattened : Bool} {v : Value}
    (isList : s.kind = .list item flattened) (unopened : v.openedBy s = false) :
    v.kind ≠ .list := by
  rintro given
  obtain ⟨items, rfl⟩ := Value.kind_eq_list_iff.1 given
  simp [Value.openedBy, isList] at unopened

mutual

/-- Two values of a shape agree.  What the shape does not look into is the same; of a structure or
a list in its place only that it is one counts. -/
inductive Agrees (g : Graph) : Shape → Value → Value → Prop
  | struct {s : Shape} {f : Fields} {fields fields' : List (String × Value)} :
      s.kind = .struct f →
      (∀ m ∈ f.bodyMembers, AgreesAt g m (fields.lookup m.label) (fields'.lookup m.label)) →
      Agrees g s (.struct fields) (.struct fields')
  | list {s : Shape} {item : Member} {flattened : Bool} {items items' : List Value} :
      s.kind = .list item flattened → items.length = items'.length →
      (∀ {element : Shape}, g.shapes.get? item.target = some element →
        ∀ (i : Nat) {v w : Value}, items[i]? = some v → items'[i]? = some w →
          Agrees g element v w) →
      Agrees g s (.list items) (.list items')
  | unopened {s : Shape} {v w : Value} :
      v.openedBy s = false → v.shell = w.shell → Agrees g s v w

/-- Two fields of a member agree: both are absent, or both are there and agree. -/
inductive AgreesAt (g : Graph) : Member → Option Value → Option Value → Prop
  | absent {m : Member} : AgreesAt g m none none
  | present {m : Member} {v w : Value} :
      (∀ {s : Shape}, g.shapes.get? m.target = some s → Agrees g s v w) →
      AgreesAt g m (some v) (some w)

end

/-- The fields of two structures agree on some members. -/
def FieldsAgree (g : Graph) (members : List Member) (fields fields' : List (String × Value)) :
    Prop :=
  ∀ m ∈ members, AgreesAt g m (fields.lookup m.label) (fields'.lookup m.label)

section

variable {g : Graph} {s : Shape} {v w : Value}

theorem Agrees.shell_eq (agree : Agrees g s v w) : v.shell = w.shell := by
  cases agree with
  | struct _ _ => rfl
  | list _ _ _ => rfl
  | unopened _ same => exact same

@[refl] theorem Agrees.refl (g : Graph) (s : Shape) (v : Value) : Agrees g s v v := by
  induction v using Value.induction_on_parts generalizing s with
  | whole v ih =>
    cases opened : v.openedBy s with
    | false => exact .unopened opened rfl
    | true =>
      unfold Value.openedBy at opened
      split at opened
      · rename_i f fields isStruct
        refine .struct isStruct fun m _ => ?_
        cases found : fields.lookup m.label with
        | none => exact .absent
        | some v => exact .present fun {s} _ => ih v (.field found) s
      · rename_i item flattened items isList
        refine .list isList rfl fun {element} _ i v w at_i at_i' => ?_
        cases at_i.symm.trans at_i'
        exact ih v (.item (List.mem_of_getElem? at_i)) element
      · cases opened

theorem AgreesAt.refl (g : Graph) (m : Member) (v : Option Value) : AgreesAt g m v v := by
  cases v with
  | none => exact .absent
  | some v => exact .present fun {s} _ => .refl g s v

end

/-! ## Changes that a body misses -/

/-- The fields of one structure in another order, anywhere in a value. -/
inductive Reordered : Value → Value → Prop
  | here {fields fields' : List (String × Value)} :
      (fields.map (·.1)).Nodup → fields.Perm fields' → Reordered (.struct fields) (.struct fields')
  | field {before after : List (String × Value)} {name : String} {v w : Value} :
      Reordered v w →
      Reordered (.struct (before ++ (name, v) :: after)) (.struct (before ++ (name, w) :: after))
  | item {before after : List Value} {v w : Value} :
      Reordered v w → Reordered (.list (before ++ v :: after)) (.list (before ++ w :: after))

mutual

/-- A change to fields that some members do not see. -/
inductive Unseen (g : Graph) :
    List Member → List (String × Value) → List (String × Value) → Prop
  /-- A field that none of the members stands for is added; backwards, one is left out. -/
  | extra {members : List Member} {before after : List (String × Value)} {name : String}
      {v : Value} :
      (∀ m ∈ members, m.label ≠ name) →
      Unseen g members (before ++ after) (before ++ (name, v) :: after)
  | order {members : List Member} {fields fields' : List (String × Value)} :
      Reordered (.struct fields) (.struct fields') → Unseen g members fields fields'
  /-- A change that the members do not see inside a field of theirs. -/
  | inside {members : List Member} {before after : List (String × Value)} {name : String}
      {v w : Value} :
      (∀ m ∈ members, m.label = name →
        ∀ {s : Shape}, g.shapes.get? m.target = some s → UnseenIn g s v w) →
      Unseen g members (before ++ (name, v) :: after) (before ++ (name, w) :: after)

/-- A change to a value that its shape does not see. -/
inductive UnseenIn (g : Graph) : Shape → Value → Value → Prop
  | fields {s : Shape} {f : Fields} {fields fields' : List (String × Value)} :
      s.kind = .struct f → Unseen g f.bodyMembers fields fields' →
      UnseenIn g s (.struct fields) (.struct fields')
  | item {s : Shape} {item : Member} {flattened : Bool} {before after : List Value}
      {v w : Value} :
      s.kind = .list item flattened →
      (∀ {element : Shape}, g.shapes.get? item.target = some element → UnseenIn g element v w) →
      UnseenIn g s (.list (before ++ v :: after)) (.list (before ++ w :: after))

end

section

variable {g : Graph} {s : Shape}

/-- Structures agree if the fields of one name do. -/
theorem agrees_of_fields {fields fields' : List (String × Value)}
    (agree : ∀ m, AgreesAt g m (fields.lookup m.label) (fields'.lookup m.label)) :
    Agrees g s (.struct fields) (.struct fields') := by
  cases opened : (Value.struct fields).openedBy s with
  | false => exact .unopened opened rfl
  | true =>
    unfold Value.openedBy at opened
    split at opened
    · rename_i f _ isStruct _
      exact .struct isStruct fun m _ => agree m
    · rename_i given
      cases given
    · cases opened

/-- Lists agree if they differ in one item, which agrees. -/
theorem agrees_of_item {before after : List Value} {v w : Value}
    (agree : ∀ {item : Member} {flattened : Bool} {element : Shape},
      s.kind = .list item flattened → g.shapes.get? item.target = some element →
      Agrees g element v w) :
    Agrees g s (.list (before ++ v :: after)) (.list (before ++ w :: after)) := by
  cases opened : (Value.list (before ++ v :: after)).openedBy s with
  | false => exact .unopened opened rfl
  | true =>
    unfold Value.openedBy at opened
    split at opened
    · rename_i given
      cases given
    · rename_i item flattened _ isList _
      refine .list isList (by simp) fun {element} found i u u' at_i at_i' => ?_
      rcases Nat.lt_trichotomy i before.length with below | rfl | above
      · rw [List.getElem?_append_left below] at at_i at_i'
        cases at_i.symm.trans at_i'
        exact .refl g element u
      · rw [List.getElem?_append_right (Nat.le_refl _), Nat.sub_self] at at_i at_i'
        cases at_i
        cases at_i'
        exact agree isList found
      · obtain ⟨j, behind⟩ := Nat.exists_eq_add_of_lt above
        rw [List.getElem?_append_right (Nat.le_of_lt above)] at at_i at_i'
        have offset : i - before.length = j + 1 := by omega
        rw [offset, List.getElem?_cons_succ] at at_i at_i'
        cases at_i.symm.trans at_i'
        exact .refl g element u
    · cases opened

/-- Reordered structures have fields that agree, if this is so for what is reordered inside them. -/
theorem agreesAt_of_reordered {fields fields' : List (String × Value)}
    (moved : Reordered (.struct fields) (.struct fields'))
    (parts : ∀ v, v.PartOf (.struct fields) → ∀ {w : Value}, Reordered v w → ∀ s, Agrees g s v w)
    (m : Member) : AgreesAt g m (fields.lookup m.label) (fields'.lookup m.label) := by
  cases moved with
  | here apart moved =>
    rw [lookup_eq_of_perm moved (countP_names_le_one apart _)]
    exact .refl g m _
  | @field before after name v w moved =>
    rcases lookup_replaced before after name m.label v w with same | ⟨-, found, found'⟩
    · rw [same]
      exact .refl g m _
    · rw [found, found']
      exact .present fun {s} _ => parts v (.field found) moved s

theorem agrees_of_reordered {v w : Value} (moved : Reordered v w) (s : Shape) :
    Agrees g s v w := by
  induction v using Value.induction_on_parts generalizing w s with
  | whole v ih =>
    cases moved with
    | here apart moved => exact agrees_of_fields (agreesAt_of_reordered (.here apart moved) ih)
    | field moved => exact agrees_of_fields (agreesAt_of_reordered (.field moved) ih)
    | @item before after v w moved =>
      have part : v.PartOf (.list (before ++ v :: after)) :=
        .item (List.mem_append_right before List.mem_cons_self)
      exact agrees_of_item fun {_} {_} {element} _ _ => ih v part moved element

/-- A change that members do not see leaves fields that agree, if this is so for the changes inside
the fields. -/
theorem fieldsAgree_of_parts {members : List Member} {fields fields' : List (String × Value)}
    (unseen : Unseen g members fields fields')
    (parts : ∀ v, v.PartOf (.struct fields) → ∀ {s : Shape} {w : Value},
      UnseenIn g s v w → Agrees g s v w) :
    FieldsAgree g members fields fields' := by
  intro m member
  cases unseen with
  | @extra _ before after name v others =>
    rw [lookup_inserted before after v (others m member)]
    exact .refl g m _
  | order moved =>
    exact agreesAt_of_reordered moved (fun _ _ _ moved s => agrees_of_reordered moved s) m
  | @inside _ before after name v w inside =>
    rcases lookup_replaced before after name m.label v w with same | ⟨named, found, found'⟩
    · rw [same]
      exact .refl g m _
    · rw [found, found']
      exact .present fun {s} target => parts v (.field found) (inside m member named.symm target)

theorem agrees_of_unseenIn {v w : Value} (unseen : UnseenIn g s v w) : Agrees g s v w := by
  induction v using Value.induction_on_parts generalizing w s with
  | whole v ih =>
    cases unseen with
    | fields isStruct unseen =>
      exact .struct isStruct (fieldsAgree_of_parts unseen fun v part {_} {_} => ih v part)
    | @item _ item flattened before after v w isList inside =>
      have part : v.PartOf (.list (before ++ v :: after)) :=
        .item (List.mem_append_right before List.mem_cons_self)
      refine agrees_of_item fun {item'} {_} {element} isList' found => ih v part ?_
      rw [isList] at isList'
      cases isList'
      exact inside found

/-- Fields agree on the members that do not see a change to them. -/
theorem fieldsAgree_of_unseen {members : List Member} {fields fields' : List (String × Value)}
    (unseen : Unseen g members fields fields') : FieldsAgree g members fields fields' :=
  fieldsAgree_of_parts unseen fun _ _ {_} {_} inside => agrees_of_unseenIn inside

end

end WireBody.Request
