import WireBody.Request.Value
import WireBody.Proofs.Service.Carries

/-!
# Values that conform to a shape

What a request has to look like for its body to be written, said of shapes and values alone.  A
structure constrains the fields of its body members, and whatever else is among the fields is free.
A list member may be absent even if it is required.
-/

set_option autoImplicit false

namespace WireBody.Request

open WireBody.Service

/-- A text, or bytes that are the UTF-8 of one. -/
def Value.IsText : Value → Prop
  | .text _ => True
  | .blob bytes => bytes.IsValidUTF8
  | _ => False

mutual

/-- A value of a shape. -/
inductive Conforms (g : Graph) : Shape → Value → Prop
  | struct {s : Shape} {f : Fields} {fields : List (String × Value)} :
      s.kind = .struct f →
      (∀ m ∈ f.bodyMembers, MemberConforms g m (fields.lookup m.label)) →
      Conforms g s (.struct fields)
  | list {s element : Shape} {item : Member} {flattened : Bool} {items : List Value} :
      s.kind = .list item flattened → g.shapes.get? item.target = some element →
      (∀ v ∈ items, Conforms g element v) → Conforms g s (.list items)
  | text {s : Shape} {k : Scalar} {v : Value} :
      s.kind = .scalar k → k.isText = true → v.IsText → Conforms g s v
  | boolean {s : Shape} {b : Bool} : s.kind = .scalar .boolean → Conforms g s (.boolean b)

/-- The field of a member: it has a value of the member's shape, or is absent and may be. -/
inductive MemberConforms (g : Graph) : Member → Option Value → Prop
  | present {m : Member} {s : Shape} {v : Value} :
      g.shapes.get? m.target = some s → Conforms g s v → MemberConforms g m (some v)
  | absent {m : Member} {s : Shape} :
      g.shapes.get? m.target = some s → (m.required = true → s.isList = true) →
      MemberConforms g m none

end

/-! ## What conforming means for each kind of shape -/

section

variable {g : Graph} {s : Shape}

theorem conforms_struct_iff {f : Fields} (isStruct : s.kind = .struct f) {v : Value} :
    Conforms g s v ↔ ∃ fields, v = .struct fields ∧
      ∀ m ∈ f.bodyMembers, MemberConforms g m (fields.lookup m.label) := by
  constructor
  · intro conforms
    cases conforms with
    | struct isStruct' members =>
      rw [isStruct] at isStruct'
      cases isStruct'
      exact ⟨_, rfl, members⟩
    | list isList _ _ => rw [isStruct] at isList; cases isList
    | text isScalar _ _ => rw [isStruct] at isScalar; cases isScalar
    | boolean isBoolean => rw [isStruct] at isBoolean; cases isBoolean
  · rintro ⟨fields, rfl, members⟩
    exact .struct isStruct members

theorem conforms_list_iff {item : Member} {flattened : Bool} {element : Shape}
    (isList : s.kind = .list item flattened) (found : g.shapes.get? item.target = some element)
    {v : Value} :
    Conforms g s v ↔ ∃ items, v = .list items ∧ ∀ w ∈ items, Conforms g element w := by
  constructor
  · intro conforms
    cases conforms with
    | struct isStruct _ => rw [isList] at isStruct; cases isStruct
    | list isList' found' all =>
      rw [isList] at isList'
      cases isList'
      cases found.symm.trans found'
      exact ⟨_, rfl, all⟩
    | text isScalar _ _ => rw [isList] at isScalar; cases isScalar
    | boolean isBoolean => rw [isList] at isBoolean; cases isBoolean
  · rintro ⟨items, rfl, all⟩
    exact .list isList found all

theorem conforms_text_iff {k : Scalar} (isScalar : s.kind = .scalar k) (isText : k.isText = true)
    {v : Value} : Conforms g s v ↔ v.IsText := by
  constructor
  · intro conforms
    cases conforms with
    | struct isStruct _ => rw [isScalar] at isStruct; cases isStruct
    | list isList _ _ => rw [isScalar] at isList; cases isList
    | text _ _ text => exact text
    | boolean isBoolean =>
      rw [isScalar] at isBoolean
      cases isBoolean
      cases isText
  · exact .text isScalar isText

theorem conforms_boolean_iff (isBoolean : s.kind = .scalar .boolean) {v : Value} :
    Conforms g s v ↔ ∃ b, v = .boolean b := by
  constructor
  · intro conforms
    cases conforms with
    | struct isStruct _ => rw [isBoolean] at isStruct; cases isStruct
    | list isList _ _ => rw [isBoolean] at isList; cases isList
    | text isScalar isText _ =>
      rw [isBoolean] at isScalar
      cases isScalar
      cases isText
    | boolean _ => exact ⟨_, rfl⟩
  · rintro ⟨b, rfl⟩
    exact .boolean isBoolean

theorem memberConforms_some_iff {m : Member} (found : g.shapes.get? m.target = some s)
    {v : Value} : MemberConforms g m (some v) ↔ Conforms g s v := by
  constructor
  · intro conforms
    cases conforms with
    | present found' conforms =>
      cases found.symm.trans found'
      exact conforms
  · exact .present found

theorem memberConforms_none_iff {m : Member} (found : g.shapes.get? m.target = some s) :
    MemberConforms g m none ↔ (m.required = true → s.isList = true) := by
  constructor
  · intro conforms
    cases conforms with
    | absent found' mayBe =>
      cases found.symm.trans found'
      exact mayBe
  · exact .absent found

end

end WireBody.Request
