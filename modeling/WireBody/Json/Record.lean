import WireBody.Entries
import WireBody.Json.Basic

/-!
# Records in a document

A record has named fields.  It is written as an object, in which names that are not fields are
ignored, or as an array of its first fields in the order of their declaration.  `Record.ofJson`
turns both into the same thing: the fields that are there, in the order of their declaration.

What a missing field means depends on the form.  In an object an optional field may be left out; an
array may only end early where every further field has a default.
-/

set_option autoImplicit false

namespace WireBody

/-- The fields of a record that a document gives. -/
structure Record where
  /-- The fields that are there, in the order of their declaration. -/
  given : List (String × Json)
  /-- The record was an array. -/
  positional : Bool

namespace Record

/-- Whether a name stands more than once among the entries of an object. -/
def repeated (entries : List (String × Json)) (name : String) : Bool :=
  1 < entries.countP fun e => e.1 = name

/-- The record of a document.  An object must not name a field twice, and an array must not have
more items than there are fields. -/
def ofJson (names : List String) : Json → Except Fault Record
  | .object entries =>
    if names.any (repeated entries) then .error .mismatched
    else .ok ⟨names.filterMap fun n => (entries.lookup n).map (n, ·), false⟩
  | .array items =>
    if names.length < items.length then .error .mismatched else .ok ⟨names.zip items, true⟩
  | _ => .error .mismatched

variable {α : Type}

/-- A field that has to be there. -/
def needed (r : Record) (name : String) (d : Json → Except Fault α) : Except Fault α :=
  match r.given.lookup name with
  | some j => d j
  | none => .error .mismatched

/-- A field with a default. -/
def defaulted (r : Record) (name : String) (default : α) (d : Json → Except Fault α) :
    Except Fault α :=
  match r.given.lookup name with
  | some j => d j
  | none => .ok default

/-- A value that may be null. -/
def orNull (d : Json → Except Fault α) : Json → Except Fault (Option α)
  | .null => .ok none
  | j => (d j).map some

/-- A field that may be null, and that an object may leave out. -/
def optional (r : Record) (name : String) (d : Json → Except Fault α) : Except Fault (Option α) :=
  match r.given.lookup name with
  | some j => orNull d j
  | none => if r.positional then .error .mismatched else .ok none

/-- A field that may be null or left out. -/
def omittable (r : Record) (name : String) (d : Json → Except Fault α) : Except Fault (Option α) :=
  r.defaulted name none (orNull d)

end Record

/-- An object whose names are keys: each value read by `d` under its key, a repeated key kept where
it first stands with its last value. -/
def Json.asTableOf {α : Type} (d : String → Json → Except Fault α) :
    Json → Except Fault (List (String × α))
  | .object entries => (entries.mapM fun e => (d e.1 e.2).map (e.1, ·)).map collect
  | _ => .error .mismatched

end WireBody
