import WireBody.Text.Characters
import WireBody.Xml.Writer

/-!
# Reading elements

A plain reader of elements: start tags, end tags and tags of empty elements, attributes in double
quotes, texts, and the five predefined entities.  It takes every other character as it is, blanks
and line ends in texts and attribute values included.  Reading goes in two passes: `Lexer.step`
finds the tags and texts one character at a time, and `build` checks that the tags are balanced and
makes the tree.

Main definition: `read` is the sequence of elements of a text.
-/

set_option autoImplicit false

namespace WireBody.Xml

/-! ## Names -/

/-- The ranges of the characters that a name may start with. -/
def nameStartRanges : List (Nat × Nat) :=
  [(0x3A, 0x3A), (0x41, 0x5A), (0x5F, 0x5F), (0x61, 0x7A), (0xC0, 0xD6), (0xD8, 0xF6),
   (0xF8, 0x2FF), (0x370, 0x37D), (0x37F, 0x1FFF), (0x200C, 0x200D), (0x2070, 0x218F),
   (0x2C00, 0x2FEF), (0x3001, 0xD7FF), (0xF900, 0xFDCF), (0xFDF0, 0xFFFD), (0x10000, 0xEFFFF)]

/-- The ranges of the characters that a name may go on with besides. -/
def nameRestRanges : List (Nat × Nat) :=
  [(0x2D, 0x2E), (0x30, 0x39), (0xB7, 0xB7), (0x300, 0x36F), (0x203F, 0x2040)]

/-- Whether a character is in one of some ranges. -/
def inRanges (ranges : List (Nat × Nat)) (c : Char) : Bool :=
  ranges.any fun r => r.1 ≤ c.toNat && c.toNat ≤ r.2

/-- Whether a name may start with a character. -/
def isNameStart (c : Char) : Bool := inRanges nameStartRanges c

/-- Whether a character may stand in a name. -/
def isNameChar (c : Char) : Bool := isNameStart c || inRanges nameRestRanges c

/-- Whether characters are a name. -/
def isNameOf : List Char → Bool
  | [] => false
  | c :: rest => isNameStart c && rest.all isNameChar

/-- Whether a text is a name. -/
def isName (s : String) : Bool := isNameOf s.toList

/-! ## Texts -/

/-- The character that an entity stands for. -/
def entityChar (name : List Char) : Option Char :=
  if name = ['l', 't'] then some '<'
  else if name = ['g', 't'] then some '>'
  else if name = ['a', 'm', 'p'] then some '&'
  else if name = ['a', 'p', 'o', 's'] then some '\x27'
  else if name = ['q', 'u', 'o', 't'] then some '"'
  else none

/-- A text or attribute value as far as it was read: its characters, and those of the entity that
was begun. -/
structure Passage where
  chars : List Char
  entity : Option (List Char)
  deriving DecidableEq, Repr

namespace Passage

/-- Nothing was read. -/
def start : Passage := ⟨[], none⟩

/-- Read a character. -/
def step (p : Passage) (c : Char) : Option Passage :=
  match p.entity with
  | none => if c = '&' then some ⟨p.chars, some []⟩ else some ⟨p.chars ++ [c], none⟩
  | some name =>
    if c = ';' then (entityChar name).map fun d => ⟨p.chars ++ [d], none⟩
    else some ⟨p.chars, some (name ++ [c])⟩

/-- Read some characters. -/
def run (p : Passage) (chars : List Char) : Option Passage := chars.foldlM step p

end Passage

/-! ## Tags -/

/-- What a text consists of. -/
inductive Token where
  | startTag (name : String) (attributes : List (String × String))
  | emptyTag (name : String) (attributes : List (String × String))
  | endTag (name : String)
  | text (value : String)
  deriving DecidableEq, Repr

namespace Token

/-- The attributes of a tag. -/
def attributes : Token → List (String × String)
  | .startTag _ attributes | .emptyTag _ attributes => attributes
  | .endTag _ | .text _ => []

/-- Whether the tag and its attributes have names. -/
def named : Token → Bool
  | .startTag name attributes | .emptyTag name attributes =>
    isName name && attributes.all fun a => isName a.1
  | .endTag name => isName name
  | .text _ => true

end Token

/-- A start tag as far as it was read. -/
structure Tag where
  name : String
  attributes : List (String × String)
  deriving DecidableEq, Repr

/-- Where in a text the lexer is. -/
inductive Mode where
  /-- Between tags. -/
  | content (p : Passage)
  /-- Behind the bracket that opens a tag. -/
  | opened
  /-- In the name of an end tag. -/
  | endName (name : List Char)
  /-- In the name of a start tag. -/
  | startName (name : List Char)
  /-- Behind an attribute. -/
  | attributeEnd (tag : Tag)
  /-- Behind a blank in a start tag. -/
  | separated (tag : Tag)
  /-- In the name of an attribute. -/
  | attributeName (tag : Tag) (name : List Char)
  /-- In front of the quote that opens a value. -/
  | quote (tag : Tag) (name : String)
  /-- In the value of an attribute. -/
  | value (tag : Tag) (name : String) (p : Passage)
  /-- Behind the stroke that ends the tag of an empty element. -/
  | stroke (tag : Tag)
  deriving DecidableEq, Repr

/-- What the lexer has read, and where it is. -/
structure Lexer where
  tokens : List Token
  mode : Mode
  deriving DecidableEq, Repr

namespace Lexer

/-- Nothing was read. -/
def start : Lexer := ⟨[], .content .start⟩

/-- The tokens with the text that ends here; an empty text is none. -/
def flushed (tokens : List Token) (chars : List Char) : List Token :=
  if chars.isEmpty then tokens else tokens ++ [.text (.ofList chars)]

/-- Behind a tag that ended. -/
def emit (tokens : List Token) (t : Token) : Option Lexer :=
  if t.named then some ⟨tokens ++ [t], .content .start⟩ else none

/-- What may follow the name or an attribute of a start tag. -/
def behind (tokens : List Token) (tag : Tag) (c : Char) : Option Lexer :=
  if isBlank c then some ⟨tokens, .separated tag⟩
  else if c = '/' then some ⟨tokens, .stroke tag⟩
  else if c = '>' then emit tokens (.startTag tag.name tag.attributes)
  else none

/-- Read a character. -/
def step (l : Lexer) (c : Char) : Option Lexer :=
  match l.mode with
  | .content p =>
    if c = '<' then
      if p.entity.isNone then some ⟨flushed l.tokens p.chars, .opened⟩ else none
    else (p.step c).map fun q => ⟨l.tokens, .content q⟩
  | .opened =>
    if isNameChar c then some ⟨l.tokens, .startName [c]⟩
    else if c = '/' then some ⟨l.tokens, .endName []⟩
    else none
  | .endName name =>
    if isNameChar c then some ⟨l.tokens, .endName (name ++ [c])⟩
    else if c = '>' then emit l.tokens (.endTag (.ofList name))
    else none
  | .startName name =>
    if isNameChar c then some ⟨l.tokens, .startName (name ++ [c])⟩
    else behind l.tokens ⟨.ofList name, []⟩ c
  | .attributeEnd tag => behind l.tokens tag c
  | .separated tag =>
    if isNameChar c then some ⟨l.tokens, .attributeName tag [c]⟩ else behind l.tokens tag c
  | .attributeName tag name =>
    if isNameChar c then some ⟨l.tokens, .attributeName tag (name ++ [c])⟩
    else if c = '=' then some ⟨l.tokens, .quote tag (.ofList name)⟩
    else none
  | .quote tag name => if c = '"' then some ⟨l.tokens, .value tag name .start⟩ else none
  | .value tag name p =>
    if c = '"' then
      if p.entity.isNone then
        some ⟨l.tokens, .attributeEnd ⟨tag.name, tag.attributes ++ [(name, .ofList p.chars)]⟩⟩
      else none
    else if c = '<' then none
    else (p.step c).map fun q => ⟨l.tokens, .value tag name q⟩
  | .stroke tag => if c = '>' then emit l.tokens (.emptyTag tag.name tag.attributes) else none

/-- Read some characters. -/
def run (l : Lexer) (chars : List Char) : Option Lexer := chars.foldlM step l

/-- The tokens, if the text may end here. -/
def finish (l : Lexer) : Option (List Token) :=
  match l.mode with
  | .content ⟨chars, none⟩ => some (flushed l.tokens chars)
  | _ => none

end Lexer

/-- The tags and texts of a text. -/
def tokenize (s : String) : Option (List Token) := (Lexer.start.run s.toList).bind Lexer.finish

/-! ## Elements -/

/-- An element whose end tag is still to come, and what stands before it. -/
structure Frame where
  before : Forest
  tag : Tag

/-- The nodes of some tokens.  Each end tag has to belong to the last start tag that is open, and
texts stand in elements alone. -/
def build (above : List Frame) (nodes : Forest) : List Token → Option Forest
  | [] => if above.isEmpty then some nodes else none
  | .startTag name attributes :: rest => build (⟨nodes, ⟨name, attributes⟩⟩ :: above) [] rest
  | .emptyTag name attributes :: rest => build above (nodes ++ [.element name attributes []]) rest
  | .text value :: rest =>
    if above.isEmpty then none else build above (nodes ++ [.text value]) rest
  | .endTag name :: rest =>
    match above with
    | [] => none
    | frame :: above =>
      if frame.tag.name = name then
        build above (frame.before ++ [.element name frame.tag.attributes nodes]) rest
      else none

/-- The elements of a text. -/
def read (s : String) : Option Forest := (tokenize s).bind (build [] [])

example : read "<a b=\"1 &lt; 2\" ><c/> d</a>" =
    some [.element "a" [("b", "1 < 2")] [.element "c" [] [], .text " d"]] := by rfl

example : read "<a><b></a></b>" = none := by rfl

end WireBody.Xml
