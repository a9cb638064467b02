import WireBody.Json.Basic
import WireBody.Program.Basic

/-!
# Programs as documents

A program is shown as a JSON document, and can be taken back from it.  Each step names its kind in
`op` and a plan in `kind`; what a step does not have is left out.

Main definitions: `Program.toJson` shows a program, `Program.ofJson?` takes one back.
-/

set_option autoImplicit false

namespace WireBody

namespace Program

/-! ## Showing -/

/-- A source: the present value and the item by a word, a field as an object. -/
def Source.toJson : Source → Json
  | .field name => .object [("field", .string name)]
  | .present => .string "present"
  | .item => .string "item"

/-- A namespace declaration. -/
def NamespaceDeclaration.toJson (n : NamespaceDeclaration) : Json :=
  .object [("name", .string n.name), ("uri", .string n.uri)]

/-- An entry that stands only where there is a value. -/
def entryOf {α : Type} (name : String) (f : α → Json) : Option α → List (String × Json)
  | some a => [(name, f a)]
  | none => []

mutual

/-- A step. -/
def Op.toJson : Op → Json
  | .ifPresent field body =>
    .object
      [("op", .string "if_present"), ("field", .string field), ("body", .array (opsToJson body))]
  | .element tag source =>
    .object [("op", .string "element"), ("tag", .string tag), ("input", source.toJson)]
  | .attr name source =>
    .object [("op", .string "attribute"), ("name", .string name), ("input", source.toJson)]
  | .boolean tag source =>
    .object [("op", .string "boolean"), ("tag", .string tag), ("input", source.toJson)]
  | .struct tag declared shape source =>
    .object
      ([("op", .string "structure"), ("tag", .string tag)] ++
        entryOf "namespace" NamespaceDeclaration.toJson declared ++
        [("shape", .string shape), ("input", source.toJson)])
  | .forEach wrapper source body =>
    .object
      ([("op", .string "for_each")] ++ entryOf "wrapper" .string wrapper ++
        [("input", source.toJson), ("body", .array (opsToJson body))])

/-- Some steps. -/
def opsToJson : List Op → List Json
  | [] => []
  | op :: rest => op.toJson :: opsToJson rest

end

/-- A routine. -/
def Routine.toJson (r : Routine) : Json :=
  .object [("shape", .string r.shape), ("ops", .array (opsToJson r.ops))]

/-- A plan. -/
def Plan.toJson : Plan → Json
  | .empty => .object [("kind", .string "empty")]
  | .raw field => .object [("kind", .string "raw"), ("field", .string field)]
  | .document root payload =>
    .object
      ([("kind", .string "document"), ("root", .string root)] ++ entryOf "payload" .string payload)

/-- Routines under the names of their structures, in name order. -/
def routinesToJson (routines : NameMap Routine) : Json :=
  .object (routines.entries.map fun e => (e.1, e.2.toJson))

/-- A program. -/
def toJson (p : Program) : Json :=
  .object
    [("operation", .string p.operation), ("plan", p.plan.toJson),
     ("routines", routinesToJson p.routines)]

/-! ## Taking back -/

/-- A string. -/
def textOf? : Json → Option String
  | .string s => some s
  | _ => none

/-- The entries of an object. -/
def entriesOf? : Json → Option (List (String × Json))
  | .object entries => some entries
  | _ => none

/-- The string under a name. -/
def textAt? (entries : List (String × Json)) (name : String) : Option String :=
  (entries.lookup name).bind textOf?

/-- A value that may be left out. -/
def optionalAt? {α : Type} (entries : List (String × Json)) (name : String)
    (d : Json → Option α) : Option (Option α) :=
  match entries.lookup name with
  | none => some none
  | some j => (d j).map some

/-- A source. -/
def Source.ofJson? : Json → Option Source
  | .object [("field", .string name)] => some (.field name)
  | .string "present" => some .present
  | .string "item" => some .item
  | _ => none

/-- The source under `input`. -/
def sourceAt? (entries : List (String × Json)) : Option Source :=
  (entries.lookup "input").bind Source.ofJson?

/-- A namespace declaration. -/
def NamespaceDeclaration.ofJson? (j : Json) : Option NamespaceDeclaration := do
  let entries ← entriesOf? j
  return ⟨← textAt? entries "name", ← textAt? entries "uri"⟩

mutual

/-- A step. -/
def Op.ofJson? : Json → Option Op
  | .object entries => do
    let kind ← textAt? entries "op"
    if kind = "if_present" then
      return .ifPresent (← textAt? entries "field") (← bodyAt? entries)
    else if kind = "element" then
      return .element (← textAt? entries "tag") (← sourceAt? entries)
    else if kind = "attribute" then
      return .attr (← textAt? entries "name") (← sourceAt? entries)
    else if kind = "boolean" then
      return .boolean (← textAt? entries "tag") (← sourceAt? entries)
    else if kind = "structure" then
      return .struct (← textAt? entries "tag")
        (← optionalAt? entries "namespace" NamespaceDeclaration.ofJson?)
        (← textAt? entries "shape") (← sourceAt? entries)
    else if kind = "for_each" then
      return .forEach (← optionalAt? entries "wrapper" textOf?) (← sourceAt? entries)
        (← bodyAt? entries)
    else none
  | _ => none

/-- The steps under `body`. -/
def bodyAt? : List (String × Json) → Option (List Op)
  | [] => none
  | ("body", .array items) :: _ => opsOf? items
  | ("body", _) :: _ => none
  | _ :: rest => bodyAt? rest

/-- Some steps. -/
def opsOf? : List Json → Option (List Op)
  | [] => some []
  | j :: rest => do return (← Op.ofJson? j) :: (← opsOf? rest)

end

/-- A routine. -/
def Routine.ofJson? (j : Json) : Option Routine := do
  let entries ← entriesOf? j
  return ⟨← textAt? entries "shape",
    ← (entries.lookup "ops").bind fun | .array items => opsOf? items | _ => none⟩

/-- A plan. -/
def Plan.ofJson? (j : Json) : Option Plan := do
  let entries ← entriesOf? j
  let kind ← textAt? entries "kind"
  if kind = "empty" then return .empty
  else if kind = "raw" then return .raw (← textAt? entries "field")
  else if kind = "document" then
    return .document (← textAt? entries "root") (← optionalAt? entries "payload" textOf?)
  else none

/-- Routines under the names of their structures. -/
def routinesOf? (j : Json) : Option (NameMap Routine) := do
  let entries ← entriesOf? j
  let routines ← entries.mapM fun e => (Routine.ofJson? e.2).map (e.1, ·)
  return NameMap.ofList routines

/-- A program. -/
def ofJson? (j : Json) : Option Program := do
  let entries ← entriesOf? j
  return ⟨← textAt? entries "operation", ← (entries.lookup "plan").bind Plan.ofJson?,
    ← (entries.lookup "routines").bind routinesOf?⟩

end Program

end WireBody
