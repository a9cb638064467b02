import WireBody.Request.Value

/-!
# Why a request has no body
-/

set_option autoImplicit false

namespace WireBody.Run

open WireBody.Request

/-- Why a run of a program fails.  The names are those of elements, attributes and fields. -/
inductive RunError where
  /-- A value that is always written is absent. -/
  | missingValue (name : String)
  /-- A value is of the wrong kind. -/
  | typeMismatch (name : String) (expected found : ValueKind)
  /-- Bytes that are written as text are not UTF-8. -/
  | invalidUtf8 (name : String)
  /-- The program calls a routine that it does not have. -/
  | missingRoutine (shape : String)
  /-- The program sets an attribute of the document itself. -/
  | attributeOnDocument (name : String)
  deriving DecidableEq, Repr

/-- The sentence that reports an error. -/
def RunError.message : RunError → String
  | .missingValue n => "missing required value for `" ++ n ++ "`"
  | .typeMismatch n expected found =>
    "`" ++ n ++ "` expects a " ++ expected.name ++ " value, found " ++ found.name
  | .invalidUtf8 n => "`" ++ n ++ "` is not valid UTF-8 text"
  | .missingRoutine s => "no compiled routine for shape `" ++ s ++ "`"
  | .attributeOnDocument n => "cannot set attribute `" ++ n ++ "` on the document node"

end WireBody.Run
