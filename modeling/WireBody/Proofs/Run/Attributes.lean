import WireBody.Proofs.Run.Steps

/-!
# Steps without attributes

A document cannot have attributes and an element can; nothing else that a step does depends on the
place that it fills.  Steps that set no attribute therefore write the same wherever they are taken.
-/

set_option autoImplicit false

namespace WireBody.Run

open WireBody.Program
open WireBody.Request

/-- Steps that set no attribute do not depend on the place. -/
theorem runOps_eq_of_no_attribute {p : Program} {place : Place} {scope : Scope} {ops : List Op}
    (plain : Op.anySetsAttribute ops = false) :
    runOps p place scope ops = runOps p .element scope ops := by
  revert plain
  refine (runOps.mutual_induct p
    (fun place scope ops => Op.anySetsAttribute ops = false →
      runOps p place scope ops = runOps p .element scope ops)
    (fun place scope op => op.setsAttribute = false →
      runOp p place scope op = runOp p .element scope op)
    (fun place scope body items below => Op.anySetsAttribute body = false →
      runItems p place scope body items below = runItems p .element scope body items below)
    ?nil ?cons ?absent ?present ?element ?attr ?boolean ?notStruct ?noRoutine ?struct
    ?notList ?wrapped ?flattened ?noItems ?items).1 place scope ops
  case nil =>
    intro place scope _
    rw [runOps_nil, runOps_nil]
  case cons =>
    intro place scope op rest ihOp ihRest plain
    rw [Op.anySetsAttribute, Bool.or_eq_false_iff] at plain
    rw [runOps_cons, runOps_cons, ihOp plain.1, ihRest plain.2]
  case absent =>
    intro place scope field body absent _
    rw [runOp_ifPresent_of_none body absent, runOp_ifPresent_of_none body absent]
  case present =>
    intro place scope field body v found ih plain
    rw [Op.setsAttribute] at plain
    rw [runOp_ifPresent_of_some body found, runOp_ifPresent_of_some body found, ih plain]
  case element =>
    intro place scope tag source _
    rw [runOp_element, runOp_element]
  case attr =>
    intro place scope name source plain
    rw [Op.setsAttribute] at plain
    cases plain
  case boolean =>
    intro place scope tag source _
    rw [runOp_boolean, runOp_boolean]
  case notStruct =>
    intro place scope tag declared shape source e failed _
    rw [runOp_struct_of_error failed, runOp_struct_of_error failed]
  case noRoutine =>
    intro place scope tag declared shape source fields required _ missing _
    rw [runOp_struct_of_missing required missing, runOp_struct_of_missing required missing]
  case struct =>
    intro place scope tag declared shape source fields required _ r own _ _
    rw [runOp_struct required own, runOp_struct required own]
  case notList =>
    intro place scope wrapper source body e failed _
    rw [runOp_forEach_of_error body failed, runOp_forEach_of_error body failed]
  case wrapped =>
    intro place scope source body items tag listed _ _
    rw [runOp_forEach_some body listed, runOp_forEach_some body listed]
  case flattened =>
    intro place scope source body items listed ih plain
    rw [Op.setsAttribute] at plain
    rw [runOp_forEach_none body listed, runOp_forEach_none body listed, ih plain]
  case noItems =>
    intro place scope body below _ _
    rw [runItems_nil, runItems_nil]
  case items =>
    intro place scope body v rest below _ ihFirst ihRest plain
    rw [runItems_cons, runItems_cons, ihFirst plain, ihRest plain]

end WireBody.Run
