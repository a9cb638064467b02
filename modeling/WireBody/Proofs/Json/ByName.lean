import WireBody.Json.Basic
import WireBody.Proofs.Entries

/-!
# Documents kept by name

A document says the same in whatever order the entries of its objects stand.  A reader that has no
use for that order keeps each object by name: its entries in name order, and of two entries of one
name the later one.

Main definitions: `Json.byName` is a document as it is kept by name, and `Json.InNameOrder` says
that it is kept so already.
-/

set_option autoImplicit false

namespace WireBody.Json

/-- Induction on documents: by the items of an array and the values in an object. -/
@[elab_as_elim]
theorem induction_on_contents {motive : Json → Prop} (j : Json)
    (null : motive .null) (bool : ∀ b, motive (.bool b)) (number : ∀ n, motive (.number n))
    (string : ∀ s, motive (.string s))
    (array : ∀ items, (∀ k ∈ items, motive k) → motive (.array items))
    (object : ∀ entries, (∀ e ∈ entries, motive e.2) → motive (.object entries)) : motive j := by
  have below : ∀ k, sizeOf k < sizeOf j → motive k := fun k less =>
    induction_on_contents k null bool number string array object
  cases j with
  | null => exact null
  | bool b => exact bool b
  | number n => exact number n
  | string s => exact string s
  | array items =>
    apply array
    intro k listed
    apply below
    have := List.sizeOf_lt_of_mem listed
    rw [Json.array.sizeOf_spec]
    omega
  | object entries =>
    apply object
    rintro ⟨name, k⟩ listed
    apply below k
    have := List.sizeOf_lt_of_mem listed
    rw [Prod.mk.sizeOf_spec] at this
    rw [Json.object.sizeOf_spec]
    omega
termination_by sizeOf j

/-! ## Keeping by name -/

mutual

/-- A document with each object kept by name. -/
def byName : Json → Json
  | .array items => .array (itemsByName items)
  | .object entries => .object (NameMap.ofList (entriesByName entries)).entries
  | j => j

/-- The items of an array, objects in them kept by name. -/
def itemsByName : List Json → List Json
  | [] => []
  | j :: rest => j.byName :: itemsByName rest

/-- The entries of an object, objects in them kept by name. -/
def entriesByName : List (String × Json) → List (String × Json)
  | [] => []
  | (name, j) :: rest => (name, j.byName) :: entriesByName rest

end

theorem itemsByName_eq_map (items : List Json) : itemsByName items = items.map byName := by
  induction items with
  | nil => rfl
  | cons j rest ih => rw [itemsByName, ih, List.map_cons]

theorem entriesByName_eq_map (entries : List (String × Json)) :
    entriesByName entries = entries.map fun e => (e.1, e.2.byName) := by
  induction entries with
  | nil => rfl
  | cons e rest ih => rw [entriesByName, ih, List.map_cons]

theorem byName_array (items : List Json) : (array items).byName = .array (items.map byName) := by
  rw [byName, itemsByName_eq_map]

/-- It does not matter whether an object or what is in it is kept by name first. -/
theorem byName_object (entries : List (String × Json)) :
    (object entries).byName =
      .object ((NameMap.ofList entries).entries.map fun e => (e.1, e.2.byName)) := by
  rw [byName, entriesByName_eq_map, NameMap.entries_ofList_map]

/-! ## Documents in name order -/

/-- Each object of the document has its entries in name order. -/
inductive InNameOrder : Json → Prop
  | null : InNameOrder .null
  | bool (b : Bool) : InNameOrder (.bool b)
  | number (n : Number) : InNameOrder (.number n)
  | string (s : String) : InNameOrder (.string s)
  | array {items : List Json} : (∀ j ∈ items, InNameOrder j) → InNameOrder (.array items)
  | object {entries : List (String × Json)} :
      entries.Pairwise (fun a b => a.1 < b.1) → (∀ e ∈ entries, InNameOrder e.2) →
      InNameOrder (.object entries)

/-- What is kept by name is in name order. -/
theorem inNameOrder_byName (j : Json) : j.byName.InNameOrder := by
  induction j using induction_on_contents with
  | null => exact .null
  | bool b => exact .bool b
  | number n => exact .number n
  | string s => exact .string s
  | array items ih =>
    rw [byName_array]
    exact .array (List.forall_mem_map.2 ih)
  | object entries ih =>
    rw [byName_object]
    refine .object (List.pairwise_map.2 (NameMap.ofList entries).ordered) ?_
    exact List.forall_mem_map.2 fun e listed => ih e (NameMap.mem_of_mem_ofList listed)

/-- A document in name order is kept as it is. -/
theorem byName_of_inNameOrder {j : Json} (ordered : j.InNameOrder) : j.byName = j := by
  induction ordered with
  | null => rfl
  | bool b => rfl
  | number n => rfl
  | string s => rfl
  | array _ ih => rw [byName_array, List.map_congr_left ih, List.map_id']
  | @object entries ordered _ ih =>
    have same : (entries.map fun e => (e.1, e.2.byName)) = entries.map id :=
      List.map_congr_left fun e listed => by rw [ih e listed, id]
    rw [byName_object, NameMap.entries_ofList ordered, same, List.map_id]

end WireBody.Json
