import WireBody.Entries

/-!
# Element trees

A document body is a sequence of elements.  Names are taken as they come, and so are texts: what has
to be escaped is a matter of writing them.
-/

set_option autoImplicit false

namespace WireBody.Xml

/-- An element or a text. -/
inductive Node where
  | element (name : String) (attributes : List (String × String)) (children : List Node)
  | text (value : String)
  deriving Inhabited, Repr

/-- A sequence of nodes. -/
abbrev Forest : Type := List Node

namespace Node

/-- An element that holds a text alone; an empty text leaves it empty. -/
def ofText (name text : String) : Node :=
  .element name [] (if text.isEmpty then [] else [.text text])

end Node

end WireBody.Xml
