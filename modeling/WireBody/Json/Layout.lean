import WireBody.Json.Basic
import WireBody.NameMap

/-!
# What a text has to hold

A text that is read for a purpose is held against a `Layout` while it is read, so that reading ends
at the first place where the text cannot be what it has to be.  A value may break off, be no JSON or
have another layout, and the earliest of these counts.

A layout also says which parts are passed over.  These only have to be well formed, while all others
are held to the limits of documents: nesting, number range, paired surrogate escapes.
-/

set_option autoImplicit false

namespace WireBody

/-- What a value has to be. -/
inductive Layout where
  /-- Anything; it is passed over. -/
  | ignored
  /-- Anything. -/
  | whole
  /-- A string, number, truth value or null. -/
  | scalar
  /-- An object, its values of one layout. -/
  | entries (each : Layout)
  /-- An object with some fields, each at most once and its further entries passed over; or an array
  of values for the fields in this order. -/
  | fields (named : List (String × Layout))
  /-- Anything under a tag: an object that has a field for it, at most once, or an array that begins
  with its value. -/
  | tagged (tag : String) (value : Layout)
  /-- A name, or an object of that name alone, with null. -/
  | choice (name : Layout)
  /-- Null or something else. -/
  | orNull (other : Layout)
  /-- A value that passes a test once it is read. -/
  | tested (value : Layout) (accepts : Json → Bool)

namespace Layout

/-- A value of a layout that `d` can read. -/
def takenBy {α : Type} (l : Layout) (d : Json → Except Fault α) : Layout :=
  .tested l fun j => (d j).isOk

/-- Whether strings, numbers and names are held to the limits. -/
def strict : Layout → Bool
  | .ignored => false
  | _ => true

/-- Whether a value may be a string, number, truth value or null. -/
def allowsScalar : Layout → Bool
  | .ignored | .whole | .scalar => true
  | _ => false

/-- Whether a value may be an array. -/
def allowsArray : Layout → Bool
  | .ignored | .whole | .fields _ | .tagged _ _ => true
  | _ => false

/-- Whether a value may be an object. -/
def allowsObject : Layout → Bool
  | .ignored | .whole | .entries _ | .fields _ | .tagged _ _ => true
  | _ => false

/-- The nesting left inside an array or object, of the nesting left around it.  A value that is
passed over may nest without limit. -/
def inside : Layout → Nat → Option Nat
  | .ignored, room => some room
  | _, 0 => none
  | _, room + 1 => some room

/-- The layout of item `i` of an array, if there may be one. -/
def item? : Layout → Nat → Option Layout
  | .whole, _ => some .whole
  | .fields named, i => (named[i]?).map (·.2)
  | .tagged _ value, 0 => some value
  | .tagged _ _, _ + 1 => some .whole
  | _, _ => some .ignored

/-- The layout of an object's entry. -/
def entry : Layout → String → Layout
  | .whole, _ => .whole
  | .entries each, _ => each
  | .fields named, name => (named.lookup name).getD .ignored
  | .tagged tag value, name => if name = tag then value else .whole
  | _, _ => .ignored

/-- Whether an object may have an entry of this name only once. -/
def onlyOnce : Layout → String → Bool
  | .fields named, name => (named.lookup name).isSome
  | .tagged tag _, name => name = tag
  | _, _ => false

/-! ## Sizes

The parts of a layout are no larger than the layout, which is what lets reading end on one number:
the text left, and the layout that it is held against. -/

theorem one_le_sizeOf (l : Layout) : 1 ≤ sizeOf l := by
  cases l with
  | tagged tag value => simp only [tagged.sizeOf_spec]; omega
  | _ => simp

theorem sizeOf_item?_le {l item : Layout} {i : Nat} (found : l.item? i = some item) :
    sizeOf item ≤ sizeOf l := by
  unfold item? at found
  split at found
  · cases found
    exact Nat.le_refl _
  · rename_i named i
    obtain ⟨e, listed, rfl⟩ := Option.map_eq_some_iff.1 found
    have smaller := List.sizeOf_lt_of_mem (List.mem_of_getElem? listed)
    obtain ⟨name, each⟩ := e
    simp only [Prod.mk.sizeOf_spec, fields.sizeOf_spec] at smaller ⊢
    omega
  · cases found
    simp
  · cases found
    exact one_le_sizeOf _
  · cases found
    exact one_le_sizeOf _

theorem sizeOf_entry_le (l : Layout) (name : String) : sizeOf (l.entry name) ≤ sizeOf l := by
  unfold entry
  split
  · exact Nat.le_refl _
  · simp
  · rename_i named
    cases found : named.lookup name with
    | none => exact one_le_sizeOf _
    | some each =>
      have smaller := sizeOf_lt_of_lookup found
      simp only [Option.getD_some, fields.sizeOf_spec]
      omega
  · split
    · simp
    · exact one_le_sizeOf _
  · exact one_le_sizeOf _

end Layout

end WireBody
