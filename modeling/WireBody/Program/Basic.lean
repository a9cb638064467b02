import WireBody.NameMap
import WireBody.Program.Op

/-!
# Programs

A program writes the body of one operation.  It has a routine for each structure that the body may
hold, so that a structure is worked out once, however often it occurs and wherever it leads back.
-/

set_option autoImplicit false

namespace WireBody.Program

/-- The steps that write the members of a structure. -/
structure Routine where
  shape : String
  ops : List Op
  deriving Inhabited, Repr

/-- The structures whose routines a routine calls, repetitions included. -/
def Routine.references (r : Routine) : List String := Op.allReferences r.ops

/-- Whether a routine may set an attribute of the place that it fills. -/
def Routine.setsAttribute (r : Routine) : Bool := Op.anySetsAttribute r.ops

/-- How a body comes about. -/
inductive Plan where
  /-- It is always empty. -/
  | empty
  /-- It is the value of a field as it is; empty if the field is absent. -/
  | raw (field : String)
  /-- It is a document with the members of a structure: of the request, or of the field that is the
  payload, without which the body is empty. -/
  | document (root : String) (payload : Option String)
  deriving DecidableEq, Repr

end WireBody.Program

namespace WireBody

/-- The program of an operation's body. -/
structure Program where
  operation : String
  plan : Program.Plan
  /-- The routines under the names of their structures. -/
  routines : NameMap Program.Routine

end WireBody

namespace WireBody.Program

/-- The program of a body that is always empty. -/
def empty (operation : String) : Program := ⟨operation, .empty, .empty⟩

/-- Whether a run builds a document. -/
def needsDocument (p : Program) : Bool :=
  match p.plan with
  | .document _ _ => true
  | .empty | .raw _ => false

/-- The routine of a structure. -/
def routine? (p : Program) (shape : String) : Option Routine := p.routines.get? shape

end WireBody.Program
