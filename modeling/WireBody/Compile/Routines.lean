import WireBody.Compile.Member

/-!
# The routines that a structure needs

A structure's routine calls those of the structures inside it, and they may refer back to it.
`routinesFrom` works out each structure once, starting from one and going on with what was referred
to last, until no routine is missing.  It ends because every round works out a shape of the graph
that had no routine before.
-/

set_option autoImplicit false

namespace WireBody.Compile

open WireBody.Program
open WireBody.Service

/-- The number of shapes that have no routine yet. -/
def unfinished (g : Graph) (done : NameMap Routine) : Nat :=
  g.shapes.keys.countP fun k => !done.contains k

/-- A new routine leaves one shape less without. -/
theorem unfinished_insert_lt {g : Graph} {done : NameMap Routine} {name : String} {s : Shape}
    (found : g.shapes.get? name = some s) (new : done.contains name = false) (r : Routine) :
    unfinished g (done.insert name r) < unfinished g done := by
  refine countP_lt_countP (fun k kept => ?_) (NameMap.mem_keys_iff.2 ⟨s, found⟩) ?_ ?_
  · rw [NameMap.contains_insert, Bool.not_eq_true', Bool.or_eq_false_iff] at kept
    rw [kept.2, Bool.not_false]
  · rw [new, Bool.not_false]
  · simp [NameMap.contains_insert]

/-- The routines of `done`, of the structures of a stack, and of all that these lead to. -/
def routinesFrom (g : Graph) (done : NameMap Routine) :
    List String → Except CompileError (NameMap Routine)
  | [] => .ok done
  | name :: pending =>
    if _seen : done.contains name then routinesFrom g done pending
    else
      match h : routineOf g name with
      | .error e => .error e
      | .ok r =>
        have : ∃ s, g.shapes.get? name = some s := contains_of_routineOf h
        routinesFrom g (done.insert name r)
          ((r.references.filter fun s => !done.contains s).reverse ++ pending)
termination_by pending => (unfinished g done, pending.length)
decreasing_by
  · exact Prod.Lex.right _ (Nat.lt_succ_self _)
  · obtain ⟨s, found⟩ := this
    exact Prod.Lex.left _ _ (unfinished_insert_lt found (by simpa using _seen) r)

section Rounds

variable {g : Graph} {done : NameMap Routine} {name : String} (pending : List String)

/-- A name that is done already is passed over. -/
theorem routinesFrom_of_seen (seen : done.contains name = true) :
    routinesFrom g done (name :: pending) = routinesFrom g done pending := by
  rw [routinesFrom, dif_pos seen]

/-- A structure without a routine ends the work. -/
theorem routinesFrom_of_error (unseen : ¬ done.contains name = true) {e : CompileError}
    (failed : routineOf g name = .error e) : routinesFrom g done (name :: pending) = .error e := by
  rw [routinesFrom, dif_neg unseen]
  split
  · rename_i e' failed'
    cases failed.symm.trans failed'
    rfl
  · rename_i r worked
    cases failed.symm.trans worked

/-- A new routine is stored, and what it refers to comes next. -/
theorem routinesFrom_of_ok (unseen : ¬ done.contains name = true) {r : Routine}
    (worked : routineOf g name = .ok r) :
    routinesFrom g done (name :: pending) = routinesFrom g (done.insert name r)
      ((r.references.filter fun s => !done.contains s).reverse ++ pending) := by
  rw [routinesFrom, dif_neg unseen]
  split
  · rename_i e failed
    cases worked.symm.trans failed
  · rename_i r' worked'
    cases worked.symm.trans worked'
    rfl

end Rounds

/-- The routines of a structure and of all structures inside it. -/
def routines (g : Graph) (root : String) : Except CompileError (NameMap Routine) :=
  routinesFrom g .empty [root]

end WireBody.Compile
