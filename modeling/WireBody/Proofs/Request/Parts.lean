import Mathlib.Logic.Relation
import WireBody.Request.Value

/-!
# The parts of a value

What is read of a structure is what a lookup finds in it, and of a list its items.  A part is
smaller than the whole, and what holds of a value as soon as it holds of its parts holds of every
value.
-/

set_option autoImplicit false

namespace WireBody.Request.Value

theorem kind_eq_list_iff {v : Value} : v.kind = .list ↔ ∃ items, v = .list items := by
  cases v <;> simp [kind]

theorem fields?_eq_none_iff {v : Value} : v.fields? = none ↔ v.kind ≠ .struct := by
  cases v <;> simp [fields?, kind]

/-- A field that is found in a structure, or an item of a list. -/
inductive PartOf : Value → Value → Prop
  | field {fields : List (String × Value)} {name : String} {v : Value} :
      fields.lookup name = some v → PartOf v (.struct fields)
  | item {items : List Value} {v : Value} : v ∈ items → PartOf v (.list items)

theorem PartOf.sizeOf_lt {v w : Value} (part : PartOf w v) : sizeOf w < sizeOf v := by
  cases part with
  | field found =>
    have := sizeOf_lt_of_lookup found
    rw [Value.struct.sizeOf_spec]
    omega
  | item member =>
    have := List.sizeOf_lt_of_mem member
    rw [Value.list.sizeOf_spec]
    omega

/-- A value is strictly within another one: a part of it, or a part of such a part, and so on. -/
def Within : Value → Value → Prop := Relation.TransGen PartOf

/-- Induction on values by their parts. -/
@[elab_as_elim]
theorem induction_on_parts {motive : Value → Prop} (v : Value)
    (whole : ∀ v, (∀ w, PartOf w v → motive w) → motive v) : motive v :=
  whole v fun w part =>
    have := part.sizeOf_lt
    induction_on_parts w whole
termination_by sizeOf v

end WireBody.Request.Value
