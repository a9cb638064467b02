import WireBody.Service.Graph

/-!
# Sound descriptions

`Graph.check` finds the first defect of a graph: shapes are gone through in name order and then
operations.  A list may consist of lists, but not of itself; only a structure may close a cycle.
-/

set_option autoImplicit false

namespace WireBody.Service.Graph

/-- A member has to point to a shape of the graph. -/
def checkTarget (g : Graph) (owner : Shape) (called : String) (m : Member) :
    Except GraphError Unit :=
  if g.shapes.contains m.target then .ok ()
  else .error (.danglingReference owner.name called m.target)

/-- The number of shapes that are not among some names. -/
def unmet (g : Graph) (seen : List String) : Nat :=
  g.shapes.keys.countP fun k => !seen.contains k

/-- One more name leaves one shape less. -/
theorem unmet_cons_lt {g : Graph} {name : String} {s : Shape} {seen : List String}
    (found : g.shapes.get? name = some s) (new : seen.contains name = false) :
    g.unmet (name :: seen) < g.unmet seen := by
  refine countP_lt_countP (fun k kept => ?_) (NameMap.mem_keys_iff.2 ⟨s, found⟩) ?_ ?_
  · rw [List.contains_cons, Bool.not_eq_true', Bool.or_eq_false_iff] at kept
    rw [kept.2, Bool.not_false]
  · rw [new, Bool.not_false]
  · rw [List.contains_cons, beq_self_eq_true, Bool.true_or, Bool.not_true]

/-- Whether the items of a shape, their items, and so on, come to a shape that is no list, without a
return to one of the names in `seen`.  A missing shape ends the way as well.  The way ends in any
case: each list on it is a shape of the graph that was not met before. -/
@[semireducible]
def leadsOut (g : Graph) (seen : List String) (s : Shape) : Bool :=
  match s.kind with
  | .list m _ =>
    match _found : g.shapes.get? m.target with
    | none => true
    | some next => if _met : seen.contains next.name then false else g.leadsOut (next.name :: seen) next
  | _ => true
termination_by g.unmet seen
decreasing_by
  exact unmet_cons_lt (g.shape_named _found ▸ _found) (Bool.not_eq_true _ ▸ _met)

/-- A list must not come back to a list it went through. -/
def checkNesting (g : Graph) (s : Shape) : Except GraphError Unit :=
  if g.leadsOut [s.name] s then .ok () else .error (.recursiveList s.name)

/-- A bound for lists inside one another: a way through more lists than there are shapes comes to
one of them twice. -/
def listBound (g : Graph) : Nat := g.shapes.size

theorem unmet_le_listBound (g : Graph) (seen : List String) : g.unmet seen ≤ g.listBound := by
  rw [listBound, NameMap.size, ← List.length_map]
  exact List.countP_le_length

/-- A declared body has to be a member. -/
def checkPayload (s : Shape) (f : Fields) : Except GraphError Unit :=
  match f.payload with
  | none => .ok ()
  | some p => if (f.member? p).isSome then .ok () else .error (.unknownPayload s.name p)

/-- The first defect of a shape. -/
def checkShape (g : Graph) (s : Shape) : Except GraphError Unit :=
  match s.kind with
  | .struct f => do
    f.members.forM fun m => g.checkTarget s m.label m
    checkPayload s f
  | .list m _ => do
    g.checkTarget s "member" m
    g.checkNesting s
  | .map key value _ => do
    g.checkTarget s "key" key
    g.checkTarget s "value" value
  | .scalar _ => .ok ()

/-- The input of an operation has to be a shape of the graph. -/
def checkOperation (g : Graph) (o : Operation) : Except GraphError Unit :=
  match o.input with
  | none => .ok ()
  | some input => (g.shape input).map fun _ => ()

/-- The first defect of a graph. -/
def check (g : Graph) : Except GraphError Unit := do
  g.shapes.values.forM g.checkShape
  g.operations.values.forM g.checkOperation

end WireBody.Service.Graph
