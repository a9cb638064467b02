import WireBody.Entries

/-!
# Request values

What a request sends: structures with the fields that are there, lists, texts, bytes and truth
values. An absent field is simply not among the entries.  A name is looked up from the front, so of
two entries of one name the first one counts.
-/

set_option autoImplicit false

namespace WireBody.Request

/-- The kinds of request values. -/
inductive ValueKind where
  | struct
  | list
  | text
  | blob
  | boolean
  deriving DecidableEq, Repr

/-- The name of a kind in messages. -/
def ValueKind.name : ValueKind → String
  | .struct => "structure"
  | .list => "list"
  | .text => "string"
  | .blob => "blob"
  | .boolean => "boolean"

/-- A request value. -/
inductive Value where
  | struct (fields : List (String × Value))
  | list (items : List Value)
  | text (value : String)
  | blob (bytes : ByteArray)
  | boolean (value : Bool)
  deriving Inhabited

namespace Value

/-- The kind of a value. -/
def kind : Value → ValueKind
  | .struct _ => .struct
  | .list _ => .list
  | .text _ => .text
  | .blob _ => .blob
  | .boolean _ => .boolean

/-- The structure of some entries: a name that comes again keeps its place and takes the later
value. -/
def ofEntries (entries : List (String × Value)) : Value := .struct (collect entries)

/-- The fields of a structure value. -/
def fields? : Value → Option (List (String × Value))
  | .struct fields => some fields
  | _ => none

/-- A field of a structure value. -/
def field? (v : Value) (name : String) : Option Value := v.fields?.bind fun f => f.lookup name

theorem fields?_eq_some_iff {v : Value} {f : List (String × Value)} :
    v.fields? = some f ↔ v = .struct f := by
  cases v <;> simp [fields?]

theorem kind_eq_struct_iff {v : Value} : v.kind = .struct ↔ ∃ f, v = .struct f := by
  cases v <;> simp [kind]

/-- A field is smaller than the fields that it stands among. -/
theorem sizeOf_lt_of_fields? {v : Value} {f : List (String × Value)} (h : v.fields? = some f) :
    sizeOf f < sizeOf v := by
  rw [fields?_eq_some_iff.1 h, Value.struct.sizeOf_spec]
  omega

end Value

end WireBody.Request
