import WireBody.Json.Basic

/-!
# Writing JSON

Two layouts of one document: `Json.compact` without blanks, and `Json.pretty` with each item and
entry on a line of its own, indented by two spaces a level; an array or object that has none stays
on one line.
-/

set_option autoImplicit false

namespace WireBody.Json

/-! ## Strings -/

/-- A character of a string: quotes, backslashes and control characters are escaped, all else stands
for itself. -/
def quoteChar (c : Char) : List Char :=
  match c with
  | '"' => ['\\', '"']
  | '\\' => ['\\', '\\']
  | '\x08' => ['\\', 'b']
  | '\t' => ['\\', 't']
  | '\n' => ['\\', 'n']
  | '\x0c' => ['\\', 'f']
  | '\r' => ['\\', 'r']
  | c =>
    if c < ' ' then
      ['\\', 'u', '0', '0', Nat.digitChar (c.toNat / 16), Nat.digitChar (c.toNat % 16)]
    else [c]

/-- A string in quotes. -/
def quote (s : String) : String := String.ofList (['"'] ++ s.toList.flatMap quoteChar ++ ['"'])

/-- A null, truth value, number or string; nothing for an array or object. -/
def scalarText : Json → String
  | .null => "null"
  | .bool true => "true"
  | .bool false => "false"
  | .number n => n.text
  | .string s => quote s
  | .array _ | .object _ => ""

/-! ## Compact text -/

mutual

/-- A document without blanks. -/
def compact : Json → String
  | .array items => "[" ++ compactItems items ++ "]"
  | .object entries => "\x7b" ++ compactEntries entries ++ "\x7d"
  | j => j.scalarText

/-- The items of an array, commas between them. -/
def compactItems : List Json → String
  | [] => ""
  | [j] => j.compact
  | j :: k :: rest => j.compact ++ "," ++ compactItems (k :: rest)

/-- The entries of an object, commas between them. -/
def compactEntries : List (String × Json) → String
  | [] => ""
  | [(name, j)] => quote name ++ ":" ++ j.compact
  | (name, j) :: e :: rest => quote name ++ ":" ++ j.compact ++ "," ++ compactEntries (e :: rest)

end

/-! ## Indented text -/

/-- A new line at a level of indentation. -/
def newLine (level : Nat) : String := String.ofList ('\n' :: List.replicate (2 * level) ' ')

mutual

/-- A document that starts at a level of indentation. -/
def prettyAt (level : Nat) : Json → String
  | .array [] => "[]"
  | .object [] => "\x7b\x7d"
  | .array items => "[" ++ prettyItems (level + 1) items ++ newLine level ++ "]"
  | .object entries => "\x7b" ++ prettyEntries (level + 1) entries ++ newLine level ++ "\x7d"
  | j => j.scalarText

/-- The items of an array, each on a line of its own. -/
def prettyItems (level : Nat) : List Json → String
  | [] => ""
  | [j] => newLine level ++ j.prettyAt level
  | j :: k :: rest => newLine level ++ j.prettyAt level ++ "," ++ prettyItems level (k :: rest)

/-- The entries of an object, each on a line of its own. -/
def prettyEntries (level : Nat) : List (String × Json) → String
  | [] => ""
  | [(name, j)] => newLine level ++ quote name ++ ": " ++ j.prettyAt level
  | (name, j) :: e :: rest =>
    newLine level ++ quote name ++ ": " ++ j.prettyAt level ++ "," ++
      prettyEntries level (e :: rest)

end

/-- A document on indented lines. -/
def pretty (j : Json) : String := j.prettyAt 0

end WireBody.Json
