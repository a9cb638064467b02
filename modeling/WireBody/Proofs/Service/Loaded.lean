import WireBody.Service.Description
import WireBody.Proofs.Entries
import WireBody.Proofs.Outcome

/-!
# Loaded graphs

A loaded graph is the sound graph of a description.  It is put together from the shapes and
operations that the description gives, one after the other, and of two of one name it has the later
one.
-/

set_option autoImplicit false

namespace WireBody.Service

theorem Graph.load_eq_ok_iff {j : Json} {g : Graph} :
    Graph.load j = .ok g ↔ Graph.ofJson j = .ok g ∧ g.check = .ok () := by
  unfold Graph.load
  cases decoded : Graph.ofJson j with
  | error f => simp
  | ok h =>
    cases checked : h.check with
    | error e =>
      simp only [checked, reduceCtorEq, Except.ok.injEq, false_iff, not_and]
      rintro rfl sound
      rw [checked] at sound
      cases sound
    | ok u =>
      simp only [checked, Except.ok.injEq]
      refine ⟨fun same => ⟨same, ?_⟩, And.left⟩
      rw [← same, checked]

theorem Graph.ofText_eq_ok_iff {text : String} {g : Graph} :
    Graph.ofText text = .ok g ↔
      ∃ j, Json.read Description.layout text = .ok j ∧ Graph.load j = .ok g := by
  unfold Graph.ofText
  cases Json.read Description.layout text with
  | error f => simp
  | ok j => simp

/-! ## Members without a structure -/

/-- The member belongs to no structure: it has no name, and is neither required nor a payload. -/
structure Member.Bare (m : Member) : Prop where
  name : m.name = none
  required : m.required = false
  payload : m.payload = false

/-- If the shape is a list, its member has no name. -/
def Shape.ItemsUnnamed (s : Shape) : Prop :=
  ∀ (item : Member) (flattened : Bool), s.kind = .list item flattened → item.name = none

/-! ## Shapes of a graph -/

/-- Of some insertions the last one of a name stays. -/
theorem get?_foldl_insert {α : Type} (name : α → String) (l : List α) (n : String) :
    (l.foldl (fun m a => m.insert (name a) a) (.empty : NameMap α)).get? n =
      lastOf (l.map fun a => (name a, a)) n := by
  rw [← NameMap.get?_ofList, NameMap.ofList, List.foldl_map]

/-- What no step changes stays as it is. -/
theorem foldl_unchanged {α β γ : Type} (step : β → α → β) (part : β → γ)
    (same : ∀ b a, part (step b a) = part b) (l : List α) (b : β) :
    part (l.foldl step b) = part b := by
  induction l generalizing b with
  | nil => rfl
  | cons a rest ih => exact (ih (step b a)).trans (same b a)

theorem Graph.metadata_assemble (metadata : Metadata) (shapes : List Shape)
    (operations : List Operation) :
    (Graph.assemble metadata shapes operations).metadata = metadata := by
  rw [Graph.assemble, foldl_unchanged Graph.insertOperation Graph.metadata fun _ _ => rfl,
    foldl_unchanged Graph.insertShape Graph.metadata fun _ _ => rfl]
  rfl

theorem Graph.shapes_assemble (metadata : Metadata) (shapes : List Shape)
    (operations : List Operation) :
    (Graph.assemble metadata shapes operations).shapes =
      shapes.foldl (fun m s => m.insert s.name s) .empty := by
  rw [Graph.assemble, foldl_unchanged Graph.insertOperation Graph.shapes fun _ _ => rfl]
  exact (List.foldl_hom Graph.shapes fun _ _ => rfl).symm

theorem Graph.operations_assemble (metadata : Metadata) (shapes : List Shape)
    (operations : List Operation) :
    (Graph.assemble metadata shapes operations).operations =
      operations.foldl (fun m o => m.insert o.name o) .empty := by
  have before : (shapes.foldl Graph.insertShape (Graph.empty metadata)).operations = .empty :=
    foldl_unchanged Graph.insertShape Graph.operations (fun _ _ => rfl) shapes (.empty metadata)
  rw [Graph.assemble, ← before]
  exact (List.foldl_hom Graph.operations fun _ _ => rfl).symm

/-- Of two shapes of one name a graph has the later one. -/
theorem Graph.get?_shapes_assemble (metadata : Metadata) (shapes : List Shape)
    (operations : List Operation) (n : String) :
    (Graph.assemble metadata shapes operations).shapes.get? n =
      lastOf (shapes.map fun s => (s.name, s)) n := by
  rw [Graph.shapes_assemble, get?_foldl_insert]

/-- Of two operations of one name a graph has the later one. -/
theorem Graph.get?_operations_assemble (metadata : Metadata) (shapes : List Shape)
    (operations : List Operation) (n : String) :
    (Graph.assemble metadata shapes operations).operations.get? n =
      lastOf (operations.map fun o => (o.name, o)) n := by
  rw [Graph.operations_assemble, get?_foldl_insert]

/-! ## Folders

A small description to look at statements with: a folder has an attribute, a text and the folders
in it, so its structure refers to itself. -/

/-- The description of one operation, which puts a folder. -/
def folderDescription : Json :=
  .object [
    ("operations", .object [
      ("PutFolder", .object [("input", .object [("shape", .string "Request")])])]),
    ("shapes", .object [
      ("Name", .object [("type", .string "string")]),
      ("Folders", .object [
        ("type", .string "list"), ("flattened", .bool true),
        ("member", .object [("shape", .string "Folder")])]),
      ("Folder", .object [
        ("type", .string "structure"), ("required", .array [.string "Owner"]),
        ("xmlNamespace", .object [("uri", .string "urn:folders")]),
        ("members", .object [
          ("Id", .object [
            ("shape", .string "Name"), ("locationName", .string "id"),
            ("xmlAttribute", .bool true)]),
          ("Owner", .object [("shape", .string "Name")]),
          ("Inner", .object [("shape", .string "Folders"), ("locationName", .string "Folder")])])]),
      ("Request", .object [
        ("type", .string "structure"), ("required", .array [.string "Root", .string "Host"]),
        ("members", .object [
          ("Root", .object [("shape", .string "Folder")]),
          ("Host", .object [("shape", .string "Name"), ("location", .string "header")])])])])]

/-- A folder: its name is an attribute, and the folders in it follow its owner. -/
def folderFields : Fields :=
  ⟨[⟨some "Id", "Name", some "id", .body, false, true, none, false, false⟩,
    ⟨some "Owner", "Name", none, .body, true, false, none, false, false⟩,
    ⟨some "Inner", "Folders", some "Folder", .body, false, false, none, false, false⟩], none⟩

/-- A request: the folder is its body, and the host travels in a header. -/
def putFolderFields : Fields :=
  ⟨[⟨some "Root", "Folder", none, .body, true, false, none, false, false⟩,
    ⟨some "Host", "Name", none, .header, true, false, none, false, false⟩], none⟩

/-- The operation that puts a folder. -/
def putFolder : Operation := ⟨"PutFolder", some "Request"⟩

/-- The graph of the description. -/
def folderGraph : Graph :=
  Graph.assemble .none
    [⟨"Name", .scalar .string, none, false⟩,
     ⟨"Folders", .list (.element "Folder") true, none, false⟩,
     ⟨"Folder", .struct folderFields, some ⟨"urn:folders", none⟩, false⟩,
     ⟨"Request", .struct putFolderFields, none, false⟩]
    [putFolder]

theorem load_folderDescription : Graph.load folderDescription = .ok folderGraph := rfl

end WireBody.Service
