import WireBody.Service.Validity
import WireBody.Proofs.Outcome

/-!
# What a check establishes

What the check of a graph asks is said once: of a target, of a payload, of a shape, of an operation
and of the whole graph.  In a graph that was checked every name that a lookup needs is therefore
there, and lists inside one another come to an end within the bound.
-/

set_option autoImplicit false

namespace WireBody.Service

/-- The members by which a shape points to others. -/
def Shape.pointers (s : Shape) : List Member :=
  match s.kind with
  | .struct f => f.members
  | .list item _ => [item]
  | .map key value _ => [key, value]
  | .scalar _ => []

namespace Graph

/-- Whether the items of a shape, their items, and so on, come to a shape that is no list within so
many lists.  A missing shape ends the way as well. -/
def bottomsOut (g : Graph) : Nat → Shape → Bool
  | bound, s =>
    match s.kind with
    | .list m _ =>
      match bound, g.shapes.get? m.target with
      | _, none => true
      | 0, some _ => false
      | bound + 1, some next => g.bottomsOut bound next
    | _ => true

/-- A graph whose references lead to shapes and whose lists come to an end. -/
structure Sound (g : Graph) : Prop where
  /-- The members of structures point to shapes. -/
  members : ∀ {n : String} {s : Shape} {f : Fields}, g.shapes.get? n = some s →
    s.kind = .struct f → ∀ m ∈ f.members, ∃ t, g.shapes.get? m.target = some t
  /-- A declared payload is a member. -/
  payload : ∀ {n : String} {s : Shape} {f : Fields}, g.shapes.get? n = some s →
    s.kind = .struct f → f.payload.isSome = true → ∃ m, f.payloadMember? = some m
  /-- The members of lists point to shapes. -/
  items : ∀ {n : String} {s : Shape} {item : Member} {flattened : Bool},
    g.shapes.get? n = some s → s.kind = .list item flattened →
    ∃ t, g.shapes.get? item.target = some t
  /-- Lists inside one another come to an end. -/
  bounded : ∀ {n : String} {s : Shape}, g.shapes.get? n = some s →
    g.bottomsOut g.listBound s = true

variable {g : Graph}

/-! ## What is asked -/

theorem checkTarget_eq_ok_iff {owner : Shape} {called : String} {m : Member} :
    g.checkTarget owner called m = .ok () ↔ ∃ t, g.shapes.get? m.target = some t := by
  rw [← NameMap.contains_iff, checkTarget]
  split
  · rename_i present
    exact iff_of_true rfl present
  · rename_i absent
    exact iff_of_false nofun absent

theorem checkPayload_eq_ok_iff {s : Shape} {f : Fields} :
    checkPayload s f = .ok () ↔ ∀ p, f.payload = some p → ∃ m ∈ f.members, m.name = some p := by
  have named (p : String) : (f.member? p).isSome = true ↔ ∃ m ∈ f.members, m.name = some p := by
    simp [Fields.member?]
  unfold checkPayload
  cases f.payload with
  | none => exact iff_of_true rfl nofun
  | some p =>
    simp only [Option.some.injEq, forall_eq', ← named]
    split
    · rename_i declared
      exact iff_of_true rfl declared
    · rename_i undeclared
      exact iff_of_false nofun undeclared

theorem checkOperation_eq_ok_iff {o : Operation} :
    g.checkOperation o = .ok () ↔
      ∀ input, o.input = some input → ∃ s, g.shapes.get? input = some s := by
  unfold checkOperation
  cases o.input with
  | none => exact iff_of_true rfl nofun
  | some input => simp [map_eq_ok_iff, shape_eq_ok_iff]

theorem checkNesting_eq_ok_iff {s : Shape} :
    g.checkNesting s = .ok () ↔ g.leadsOut [s.name] s = true := by
  unfold checkNesting
  split <;> simp [*]

/-- What the check asks of a shape. -/
theorem checkShape_eq_ok_iff {s : Shape} :
    g.checkShape s = .ok () ↔
      (∀ m ∈ s.pointers, ∃ t, g.shapes.get? m.target = some t) ∧
      (∀ f, s.kind = .struct f → ∀ p, f.payload = some p → ∃ m ∈ f.members, m.name = some p) ∧
      ∀ item flattened, s.kind = .list item flattened → g.leadsOut [s.name] s = true := by
  unfold checkShape Shape.pointers
  cases s.kind with
  | struct f =>
    simp only [then_eq_ok_iff, checkPayload_eq_ok_iff]
    rw [forM_eq_ok_iff]
    simp [checkTarget_eq_ok_iff]
  | list item flattened =>
    simp [then_eq_ok_iff, checkTarget_eq_ok_iff, checkNesting_eq_ok_iff]
  | map key value flattened => simp [then_eq_ok_iff, checkTarget_eq_ok_iff]
  | scalar k => simp

/-- The check asks this of every shape, and of every operation. -/
theorem check_eq_ok_iff :
    g.check = .ok () ↔
      (∀ n s, g.shapes.get? n = some s → g.checkShape s = .ok ()) ∧
      ∀ n o, g.operations.get? n = some o → g.checkOperation o = .ok () := by
  unfold check
  rw [then_eq_ok_iff, forM_eq_ok_iff, forM_eq_ok_iff]
  simp only [NameMap.mem_values_iff]
  exact ⟨fun ⟨shapes, operations⟩ => ⟨fun n s h => shapes s ⟨n, h⟩, fun n o h => operations o ⟨n, h⟩⟩,
    fun ⟨shapes, operations⟩ => ⟨fun s ⟨n, h⟩ => shapes n s h, fun o ⟨n, h⟩ => operations n o h⟩⟩

/-! ## Lists inside one another -/

/-- A shape other than a list has nothing to go through. -/
theorem bottomsOut_of_not_list {s : Shape} (other : ∀ item flattened, s.kind ≠ .list item flattened)
    (bound : Nat) : g.bottomsOut bound s = true := by
  unfold bottomsOut
  split
  · rename_i item flattened isList
    exact absurd isList (other item flattened)
  · rfl

/-- If a list comes to an end within a bound, then its items do so within less. -/
theorem exists_bound_of_item {s element : Shape} {item : Member} {flattened : Bool} {bound : Nat}
    (isList : s.kind = .list item flattened) (found : g.shapes.get? item.target = some element)
    (ends : g.bottomsOut bound s = true) :
    ∃ rest, bound = rest + 1 ∧ g.bottomsOut rest element = true := by
  unfold bottomsOut at ends
  simp only [isList, found] at ends
  cases bound with
  | zero => cases ends
  | succ rest => exact ⟨rest, rfl, ends⟩

/-- A way that comes to an end meets each list once, so it goes through no more lists than there are
shapes that it has not met. -/
theorem bottomsOut_of_leadsOut {seen : List String} {s : Shape}
    (ends : g.leadsOut seen s = true) {bound : Nat} (le : g.unmet seen ≤ bound) :
    g.bottomsOut bound s = true := by
  fun_induction leadsOut g seen s generalizing bound with
  | case1 seen s item flattened isList missing =>
    unfold bottomsOut
    simp only [isList, missing]
  | case2 => cases ends
  | case3 seen s item flattened isList next found new ih =>
    have less := unmet_cons_lt (g.shape_named found ▸ found) (Bool.not_eq_true _ ▸ new)
    obtain ⟨bound, rfl⟩ := Nat.exists_eq_add_of_lt (Nat.lt_of_lt_of_le (Nat.zero_lt_of_lt less) le)
    unfold bottomsOut
    simp only [isList, found]
    exact ih ends (by omega)
  | case4 seen s other => exact bottomsOut_of_not_list other bound

/-! ## Checked graphs -/

theorem sound_of_check (checked : g.check = .ok ()) : g.Sound := by
  have each {n : String} {s : Shape} (found : g.shapes.get? n = some s) :=
    checkShape_eq_ok_iff.1 ((check_eq_ok_iff.1 checked).1 n s found)
  constructor
  · intro n s f found isStruct m member
    exact (each found).1 m (by rwa [Shape.pointers, isStruct])
  · intro n s f found isStruct declared
    obtain ⟨p, declared⟩ := Option.isSome_iff_exists.1 declared
    rw [Fields.payloadMember?, declared, Option.bind_some, ← Option.isSome_iff_exists]
    simpa [Fields.member?] using (each found).2.1 f isStruct p declared
  · intro n s item flattened found isList
    refine (each found).1 item ?_
    rw [Shape.pointers, isList]
    exact List.mem_singleton_self item
  · intro n s found
    by_cases isList : ∃ item flattened, s.kind = .list item flattened
    · obtain ⟨item, flattened, isList⟩ := isList
      exact bottomsOut_of_leadsOut ((each found).2.2 item flattened isList)
        (g.unmet_le_listBound _)
    · exact bottomsOut_of_not_list (fun item flattened h => isList ⟨item, flattened, h⟩) _

/-- The input of an operation is a shape. -/
theorem exists_input_of_check (checked : g.check = .ok ()) {n : String} {o : Operation}
    (listed : g.operations.get? n = some o) {input : String} (given : o.input = some input) :
    ∃ s, g.shapes.get? input = some s :=
  checkOperation_eq_ok_iff.1 ((check_eq_ok_iff.1 checked).2 n o listed) input given

end Graph

end WireBody.Service
