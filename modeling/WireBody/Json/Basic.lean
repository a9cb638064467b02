import WireBody.Number.Basic

/-!
# JSON documents

The document type that service descriptions and request values are read as and compiled programs are
written as.  An object keeps its entries in the order of the text, repeated names included: what a
repetition means is for the reader of the object to say.
-/

set_option autoImplicit false

namespace WireBody

/-- A JSON document. -/
inductive Json where
  | null
  | bool (value : Bool)
  | number (value : Number)
  | string (value : String)
  | array (items : List Json)
  | object (entries : List (String × Json))
  deriving Inhabited, Repr

/-- Why a text is not the document that was asked for. -/
inductive Fault where
  /-- The text ends inside a value. -/
  | truncated
  /-- The text is not JSON, or beyond the limits of this reader. -/
  | malformed
  /-- A value is JSON, but not of the layout that was asked for. -/
  | mismatched
  deriving DecidableEq, Repr

namespace Json

/-- A document that is null. -/
def asNull : Json → Except Fault Unit
  | .null => .ok ()
  | _ => .error .mismatched

/-- A document that is a string. -/
def asString : Json → Except Fault String
  | .string s => .ok s
  | _ => .error .mismatched

/-- A document that is a truth value. -/
def asBool : Json → Except Fault Bool
  | .bool b => .ok b
  | _ => .error .mismatched

/-- A document that is an array, each item read by `d`. -/
def asArrayOf {α : Type} (d : Json → Except Fault α) : Json → Except Fault (List α)
  | .array items => items.mapM d
  | _ => .error .mismatched

end Json

end WireBody
