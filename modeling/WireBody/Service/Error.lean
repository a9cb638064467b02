/-!
# What can be wrong with a service description
-/

set_option autoImplicit false

namespace WireBody.Service

/-- A defect of a description, or a name that is looked up in vain. -/
inductive GraphError where
  | unknownShape (name : String)
  | unknownOperation (name : String)
  /-- A member points to a shape that is not there. -/
  | danglingReference (owner member target : String)
  /-- A list consists of itself. -/
  | recursiveList (name : String)
  /-- A structure declares a body that is none of its members. -/
  | unknownPayload (shape payload : String)
  deriving DecidableEq, Repr

/-- The sentence that reports a defect. -/
def GraphError.message : GraphError → String
  | .unknownShape n => "unknown shape: " ++ n
  | .unknownOperation n => "unknown operation: " ++ n
  | .danglingReference owner member target =>
    "member `" ++ member ++ "` of shape `" ++ owner ++ "` targets undefined shape `" ++ target ++
      "`"
  | .recursiveList n => "list `" ++ n ++ "` contains itself"
  | .unknownPayload shape payload =>
    "structure `" ++ shape ++ "` declares payload `" ++ payload ++ "` which is not a member"

end WireBody.Service
