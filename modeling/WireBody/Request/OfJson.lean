import WireBody.Json.Reader
import WireBody.Request.Value

/-!
# Requests from documents

A JSON document is read as a request value.  Null is absence: it drops the item or field it stands
for, and a document that is null is no request.  Numbers become their text.  The fields of a
structure come in name order, and of two entries of one name the later one counts, even if it is
null.
-/

set_option autoImplicit false

namespace WireBody.Request.Value

/-- The entries that have a value. -/
def present (entries : List (String × Option Value)) : List (String × Value) :=
  entries.filterMap fun e => e.2.map (e.1, ·)

mutual

/-- The request value of a document. -/
def ofJson : Json → Option Value
  | .null => none
  | .bool b => some (.boolean b)
  | .number n => some (.text n.text)
  | .string s => some (.text s)
  | .array items => some (.list (ofItems items))
  | .object entries => some (.struct (present (NameMap.ofList (ofEach entries)).entries))

/-- The values of the items that have one. -/
def ofItems : List Json → List Value
  | [] => []
  | j :: rest => (ofJson j).toList ++ ofItems rest

/-- The value, if any, of each entry. -/
def ofEach : List (String × Json) → List (String × Option Value)
  | [] => []
  | (name, j) :: rest => (name, ofJson j) :: ofEach rest

end

/-- The request value of a JSON text. -/
def ofText (text : String) : Except Fault (Option Value) := (Json.parse text).map ofJson

end WireBody.Request.Value
