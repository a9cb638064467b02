import WireBody.NameMap
import WireBody.Service.Error
import WireBody.Service.Shape

/-!
# The graph of a service

The shapes and operations of a service, each stored under its own name, and the lookups in them.
-/

set_option autoImplicit false

namespace WireBody.Service

/-- The shapes and operations of a service. -/
structure Graph where
  metadata : Metadata
  shapes : NameMap Shape
  operations : NameMap Operation
  shape_named : ∀ {n : String} {s : Shape}, shapes.get? n = some s → s.name = n
  operation_named : ∀ {n : String} {o : Operation}, operations.get? n = some o → o.name = n

namespace Graph

/-- A graph without shapes and operations. -/
def empty (metadata : Metadata) : Graph :=
  ⟨metadata, .empty, .empty, fun h => by simp at h, fun h => by simp at h⟩

/-- Two graphs that hold the same are the same. -/
theorem ext {g h : Graph} (metadata : g.metadata = h.metadata) (shapes : g.shapes = h.shapes)
    (operations : g.operations = h.operations) : g = h := by
  cases g; cases h; cases metadata; cases shapes; cases operations; rfl

/-- Add a shape, in place of one of the same name. -/
def insertShape (g : Graph) (s : Shape) : Graph :=
  { g with
    shapes := g.shapes.insert s.name s
    shape_named := by
      intro n t h
      rw [NameMap.get?_insert] at h
      split at h
      · rename_i eq
        cases h
        exact eq.symm
      · exact g.shape_named h }

/-- Add an operation, in place of one of the same name. -/
def insertOperation (g : Graph) (o : Operation) : Graph :=
  { g with
    operations := g.operations.insert o.name o
    operation_named := by
      intro n t h
      rw [NameMap.get?_insert] at h
      split at h
      · rename_i eq
        cases h
        exact eq.symm
      · exact g.operation_named h }

/-- The shape of a name. -/
def shape (g : Graph) (name : String) : Except GraphError Shape :=
  match g.shapes.get? name with
  | some s => .ok s
  | none => .error (.unknownShape name)

/-- The operation of a name. -/
def operation (g : Graph) (name : String) : Except GraphError Operation :=
  match g.operations.get? name with
  | some o => .ok o
  | none => .error (.unknownOperation name)

theorem shape_eq_ok_iff {g : Graph} {name : String} {s : Shape} :
    g.shape name = .ok s ↔ g.shapes.get? name = some s := by
  unfold shape
  split <;> rename_i h <;> simp [h]

theorem shape_eq_error_iff {g : Graph} {name : String} {e : GraphError} :
    g.shape name = .error e ↔ g.shapes.get? name = none ∧ e = .unknownShape name := by
  unfold shape
  split <;> rename_i h <;> simp [h, eq_comm]

theorem operation_eq_ok_iff {g : Graph} {name : String} {o : Operation} :
    g.operation name = .ok o ↔ g.operations.get? name = some o := by
  unfold operation
  split <;> rename_i h <;> simp [h]

/-- A member is streamed when it says so itself, or else when its shape does. -/
def isStreaming (g : Graph) (m : Member) : Except GraphError Bool :=
  if m.streaming then .ok true else (g.shape m.target).map (·.streaming)

end Graph

end WireBody.Service
