/-!
# Steps of a program

A program writes a request body step by step.  Each step adds to the place that is being filled: the
document itself, or an element that a step around it has opened.
-/

set_option autoImplicit false

namespace WireBody.Program

/-- Where a step finds its value. -/
inductive Source where
  /-- A field of the structure that is being written. -/
  | field (name : String)
  /-- The field that the step around has found present. -/
  | present
  /-- The item that the step around is at. -/
  | item
  deriving DecidableEq, Repr

/-- The declaration of a namespace. -/
structure NamespaceDeclaration where
  /-- The attribute that declares it. -/
  name : String
  uri : String
  deriving DecidableEq, Repr

/-- A step. -/
inductive Op where
  /-- Take the steps of `body` if the field is there. -/
  | ifPresent (field : String) (body : List Op)
  /-- Add an element with a text. -/
  | element (tag : String) (source : Source)
  /-- Set an attribute of the place. -/
  | attr (name : String) (source : Source)
  /-- Add an element with a truth value. -/
  | boolean (tag : String) (source : Source)
  /-- Add an element and fill it by the routine of a structure. -/
  | struct (tag : String) (namespaceDeclaration : Option NamespaceDeclaration) (shape : String)
      (source : Source)
  /-- Take the steps of `body` for each item of a list, inside an element of its own if there is a
  wrapper.  A list that is not there has no items. -/
  | forEach (wrapper : Option String) (source : Source) (body : List Op)
  deriving Inhabited, Repr

namespace Op

mutual

/-- Whether a step may set an attribute of the place. -/
def setsAttribute : Op → Bool
  | .attr _ _ => true
  | .ifPresent _ body => anySetsAttribute body
  | .forEach none _ body => anySetsAttribute body
  | .forEach (some _) _ _ => false
  | .element _ _ | .boolean _ _ | .struct _ _ _ _ => false

/-- Whether one of some steps may set an attribute of the place. -/
def anySetsAttribute : List Op → Bool
  | [] => false
  | op :: rest => op.setsAttribute || anySetsAttribute rest

end

mutual

/-- The structures whose routines a step calls, in the order of the calls. -/
def references : Op → List String
  | .struct _ _ shape _ => [shape]
  | .ifPresent _ body => allReferences body
  | .forEach _ _ body => allReferences body
  | .element _ _ | .attr _ _ | .boolean _ _ => []

/-- The structures whose routines some steps call. -/
def allReferences : List Op → List String
  | [] => []
  | op :: rest => op.references ++ allReferences rest

end

end Op

end WireBody.Program
