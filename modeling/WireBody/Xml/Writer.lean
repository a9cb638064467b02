import WireBody.Xml.Tree

/-!
# Writing elements

Elements are written without any blanks between them, an element without content as one tag.  The
five characters that have a meaning in markup are written as entities, in texts and attribute values
alike; every other character stands for itself.
-/

set_option autoImplicit false

namespace WireBody.Xml

/-- A character of a text or attribute value. -/
def escapeChar : Char → List Char
  | '<' => ['&', 'l', 't', ';']
  | '>' => ['&', 'g', 't', ';']
  | '\x27' => ['&', 'a', 'p', 'o', 's', ';']
  | '&' => ['&', 'a', 'm', 'p', ';']
  | '"' => ['&', 'q', 'u', 'o', 't', ';']
  | c => [c]

/-- A text or attribute value as it is written. -/
def escape (s : String) : String := String.ofList (s.toList.flatMap escapeChar)

/-- The attributes of a tag, a blank before each. -/
def writeAttributes : List (String × String) → String
  | [] => ""
  | (name, value) :: rest =>
    " " ++ name ++ "=\"" ++ escape value ++ "\"" ++ writeAttributes rest

mutual

/-- A node. -/
def Node.write : Node → String
  | .element name attributes [] => "<" ++ name ++ writeAttributes attributes ++ "/>"
  | .element name attributes (child :: rest) =>
    "<" ++ name ++ writeAttributes attributes ++ ">" ++ writeForest (child :: rest) ++
      "</" ++ name ++ ">"
  | .text value => escape value

/-- Nodes one after the other. -/
def writeForest : List Node → String
  | [] => ""
  | n :: rest => n.write ++ writeForest rest

end

/-- What a document starts with, if it is declared. -/
def declaration : String := "<?xml version=\"1.0\" encoding=\"UTF-8\"?>\n"

/-- A document.  One without elements has no text at all, not even a declaration. -/
def writeDocument (declared : Bool) (forest : Forest) : String :=
  if forest.isEmpty then ""
  else if declared then declaration ++ writeForest forest
  else writeForest forest

end WireBody.Xml
