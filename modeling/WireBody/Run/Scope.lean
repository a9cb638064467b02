import WireBody.Program.Basic
import WireBody.Run.Error

/-!
# What the steps of a routine see

While a routine writes a structure its steps see the fields of that structure, the field that a step
around has found present, and the item that a step around is at.  All of these are parts of the one
structure, and therefore smaller than it: a run ends because each call of a routine goes to a part
of what the caller writes.
-/

set_option autoImplicit false

namespace WireBody.Run

open WireBody.Program
open WireBody.Request

/-- What the steps of a routine see. -/
structure Scope where
  /-- The fields of the structure that is written. -/
  fields : List (String × Value)
  /-- The field that was found present. -/
  present : Option Value
  /-- The item that is being written. -/
  item : Option Value
  present_lt : ∀ v, present = some v → sizeOf v < sizeOf fields
  item_lt : ∀ v, item = some v → sizeOf v < sizeOf fields

namespace Scope

/-- The scope at the start of a routine. -/
def ofFields (fields : List (String × Value)) : Scope := ⟨fields, none, none, nofun, nofun⟩

/-- The scope inside a step that found a value present. -/
def withPresent (s : Scope) (v : Value) (h : sizeOf v < sizeOf s.fields) : Scope :=
  { s with present := some v, present_lt := fun _ e => Option.some.inj e ▸ h }

/-- The scope inside a step that is at an item. -/
def withItem (s : Scope) (v : Value) (h : sizeOf v < sizeOf s.fields) : Scope :=
  { s with item := some v, item_lt := fun _ e => Option.some.inj e ▸ h }

/-- The value that a step reads, if it is there. -/
def resolve (s : Scope) : Source → Option Value
  | .field name => s.fields.lookup name
  | .present => s.present
  | .item => s.item

/-- Whatever a step reads is smaller than the structure that is written. -/
theorem resolve_lt {s : Scope} {source : Source} {v : Value} (h : s.resolve source = some v) :
    sizeOf v < sizeOf s.fields := by
  cases source with
  | field name => exact sizeOf_lt_of_lookup h
  | present => exact s.present_lt v h
  | item => exact s.item_lt v h

/-- The value that a step reads and cannot do without. -/
def require (s : Scope) (source : Source) (name : String) : Except RunError Value :=
  match s.resolve source with
  | some v => .ok v
  | none => .error (.missingValue name)

theorem require_eq_ok_iff {s : Scope} {source : Source} {name : String} {v : Value} :
    s.require source name = .ok v ↔ s.resolve source = some v := by
  unfold require
  split <;> rename_i h <;> simp [h]

/-- The fields of the structure that a step reads. -/
def requireFields (s : Scope) (source : Source) (name : String) :
    Except RunError (List (String × Value)) :=
  match s.require source name with
  | .error e => .error e
  | .ok v =>
    match v.fields? with
    | some fields => .ok fields
    | none => .error (.typeMismatch name .struct v.kind)

theorem requireFields_lt {s : Scope} {source : Source} {name : String}
    {fields : List (String × Value)} (h : s.requireFields source name = .ok fields) :
    sizeOf fields < sizeOf s.fields := by
  unfold requireFields at h
  split at h
  · cases h
  · rename_i v required
    split at h
    · rename_i fields' isStruct
      cases h
      exact Nat.lt_trans (Value.sizeOf_lt_of_fields? isStruct)
        (resolve_lt (require_eq_ok_iff.1 required))
    · cases h

/-- The items of the list that a step reads; none if it is absent. -/
def items (s : Scope) (source : Source) (name : String) : Except RunError (List Value) :=
  match s.resolve source with
  | none => .ok []
  | some (.list items) => .ok items
  | some v => .error (.typeMismatch name .list v.kind)

theorem items_lt {s : Scope} {source : Source} {name : String} {items : List Value}
    (h : s.items source name = .ok items) : ∀ v ∈ items, sizeOf v < sizeOf s.fields := by
  unfold Scope.items at h
  split at h
  · cases h
    nofun
  · rename_i items' found
    cases h
    intro v member
    have below := resolve_lt found
    have := List.sizeOf_lt_of_mem member
    rw [Value.list.sizeOf_spec] at below
    omega
  · cases h

end Scope

end WireBody.Run
