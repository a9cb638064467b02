import WireBody.Proofs.Service.WellFormed

/-!
# Lists that are reported

The check walks on from each list through the items and reports the list where it started, not the
one at which it noticed a circle.  So what is reported leads to a list that contains itself, and it
need not be in the circle: a list of lists that go round is reported in their place if its name
comes before theirs.  Shapes are checked in name order, so a reported list is the first shape of all
that has a defect, and it is in the circle exactly if some list of the circle does not come after it.

Main statement: `check_eq_recursiveList_iff`.
-/

set_option autoImplicit false

namespace WireBody

variable {ε α : Type}

/-- A check of all values of a map fails with the first one in name order that fails it. -/
theorem NameMap.forM_values_eq_error_iff {m : NameMap α} {f : α → Except ε Unit} {e : ε} :
    m.values.forM f = .error e ↔ ∃ n a, m.get? n = some a ∧ f a = .error e ∧
      ∀ k b, k < n → m.get? k = some b → f b = .ok () := by
  have ordered := m.ordered
  simp only [NameMap.get?_eq_some_iff]
  rw [forM_eq_error_iff]
  constructor
  · rintro ⟨before, a, after, split, passes, failed⟩
    obtain ⟨before, later, entries, rfl, same⟩ := List.map_eq_append_iff.1 split
    obtain ⟨⟨n, a⟩, after, rfl, rfl, rfl⟩ := List.map_eq_cons_iff.1 same
    rw [entries] at ordered ⊢
    refine ⟨n, a, List.mem_append_right _ List.mem_cons_self, failed, fun k b earlier listed => ?_⟩
    -- What has a smaller name stands before.
    rcases List.mem_append.1 listed with listed | listed
    · exact passes b (List.mem_map_of_mem listed)
    · have above := (List.pairwise_append.1 ordered).2.1
      rcases List.mem_cons.1 listed with same | listed
      · cases same
        exact absurd earlier (String.lt_irrefl n)
      · have later := (List.pairwise_cons.1 above).1 _ listed
        exact absurd (String.lt_trans earlier later) (String.lt_irrefl k)
  · rintro ⟨n, a, listed, failed, passes⟩
    obtain ⟨before, after, entries⟩ := List.append_of_mem listed
    rw [entries] at ordered passes
    refine ⟨before.map (·.2), a, after.map (·.2), by rw [NameMap.values, entries]; simp, ?_, failed⟩
    intro b member
    obtain ⟨e, listed, rfl⟩ := List.mem_map.1 member
    have earlier := (List.pairwise_append.1 ordered).2.2 e listed _ List.mem_cons_self
    exact passes e.1 e.2 earlier (List.mem_append_left _ listed)

end WireBody

namespace WireBody.Service

variable {g : Graph}

/-! ## Going round -/

/-- The items of the list, their items, and so on, come to a list that contains itself. -/
def LeadsRound (g : Graph) (s : Shape) : Prop :=
  ∃ c, Relation.ReflTransGen (HasItems g) s c ∧ Relation.TransGen (HasItems g) c c

/-- The items of a list are of one shape. -/
theorem HasItems.unique {s t t' : Shape} (first : HasItems g s t) (second : HasItems g s t') :
    t = t' := by
  obtain ⟨item, flattened, isList, found⟩ := first
  obtain ⟨item', flattened', isList', found'⟩ := second
  cases isList.symm.trans isList'
  exact Option.some.inj (found.symm.trans found')

/-- A list leads round exactly if its items do. -/
theorem leadsRound_iff {s t : Shape} (items : HasItems g s t) : LeadsRound g s ↔ LeadsRound g t := by
  constructor
  · rintro ⟨c, way, circle⟩
    rcases Relation.ReflTransGen.cases_head way with rfl | ⟨t', items', way⟩
    · obtain ⟨t', items', way⟩ := Relation.TransGen.head'_iff.1 circle
      cases items.unique items'
      exact ⟨s, way, circle⟩
    · cases items.unique items'
      exact ⟨c, way, circle⟩
  · rintro ⟨c, way, circle⟩
    exact ⟨c, .head items way, circle⟩

/-- What leads round has items. -/
theorem LeadsRound.items {s : Shape} (round : LeadsRound g s) : ∃ t, HasItems g s t := by
  obtain ⟨c, way, circle⟩ := round
  rcases Relation.ReflTransGen.cases_head way with rfl | ⟨t, items, -⟩
  · obtain ⟨t, items, -⟩ := Relation.TransGen.head'_iff.1 circle
    exact ⟨t, items⟩
  · exact ⟨t, items⟩

/-- A walk returns only where it goes round: the shapes that it has met lead to where it is. -/
theorem leadsRound_of_leadsOut {seen : List String} {s : Shape}
    (met : ∀ name ∈ seen, ∃ t, g.shapes.get? name = some t ∧
      Relation.ReflTransGen (HasItems g) t s)
    (returns : g.leadsOut seen s = false) : LeadsRound g s := by
  fun_induction Graph.leadsOut g seen s with
  | case1 => cases returns
  | case2 seen s item flattened isList next found again =>
    have items : HasItems g s next := ⟨item, flattened, isList, found⟩
    obtain ⟨t, found', way⟩ := met next.name (List.contains_iff_mem.1 again)
    cases found'.symm.trans (g.shape_named found ▸ found)
    exact ⟨next, .single items, .tail' way items⟩
  | case3 seen s item flattened isList next found new ih =>
    have items : HasItems g s next := ⟨item, flattened, isList, found⟩
    refine (leadsRound_iff items).2 (ih (List.forall_mem_cons.2 ⟨?_, fun name known => ?_⟩) returns)
    · exact ⟨next, g.shape_named found ▸ found, .refl⟩
    · obtain ⟨t, found, way⟩ := met name known
      exact ⟨t, found, way.tail items⟩
  | case4 => cases returns

/-- A walk that ends does not go round. -/
theorem not_leadsRound_of_leadsOut {seen : List String} {s : Shape}
    (ends : g.leadsOut seen s = true) : ¬ LeadsRound g s := by
  fun_induction Graph.leadsOut g seen s with
  | case1 seen s item flattened isList missing =>
    intro round
    obtain ⟨t, item', flattened', isList', found⟩ := round.items
    cases isList.symm.trans isList'
    cases missing.symm.trans found
  | case2 => cases ends
  | case3 seen s item flattened isList next found new ih =>
    rw [leadsRound_iff ⟨item, flattened, isList, found⟩]
    exact ih ends
  | case4 seen s other =>
    intro round
    obtain ⟨t, item, flattened, isList, -⟩ := round.items
    exact other item flattened isList

/-- A walk from a list of the graph ends exactly if it does not go round. -/
theorem leadsOut_iff {s : Shape} (stored : g.shapes.get? s.name = some s) :
    g.leadsOut [s.name] s = true ↔ ¬ LeadsRound g s := by
  constructor
  · exact not_leadsRound_of_leadsOut
  · intro straight
    refine Bool.not_eq_false _ ▸ fun returns => straight (leadsRound_of_leadsOut ?_ returns)
    rw [List.forall_mem_singleton]
    exact ⟨s, stored, .refl⟩

/-- A list is refused exactly if it leads round. -/
theorem Graph.checkNesting_eq_error_iff {s : Shape} {e : GraphError}
    (stored : g.shapes.get? s.name = some s) :
    g.checkNesting s = .error e ↔ e = .recursiveList s.name ∧ LeadsRound g s := by
  unfold Graph.checkNesting
  split
  · rename_i ends
    exact iff_of_false nofun fun h => (leadsOut_iff stored).1 ends h.2
  · rename_i returns
    have round : LeadsRound g s :=
      Classical.not_not.1 fun straight => returns ((leadsOut_iff stored).2 straight)
    rw [and_iff_left round, Except.error.injEq]
    exact eq_comm

/-! ## Defects -/

/-- A shape without a defect. -/
structure Faultless (g : Graph) (s : Shape) : Prop where
  /-- What its members point to is there. -/
  targets : ∀ m ∈ s.pointers, ∃ t, g.shapes.get? m.target = some t
  /-- A payload that it declares is a member. -/
  payload : ∀ f p, s.kind = .struct f → f.payload = some p → ∃ m ∈ f.members, m.name = some p
  /-- The way through its items ends. -/
  ends : ¬ LeadsRound g s

theorem Graph.checkShape_eq_ok_iff_faultless {s : Shape} (stored : g.shapes.get? s.name = some s) :
    g.checkShape s = .ok () ↔ Faultless g s := by
  rw [checkShape_eq_ok_iff]
  constructor
  · rintro ⟨targets, payload, lists⟩
    refine ⟨targets, fun f p isStruct => payload f isStruct p, fun round => ?_⟩
    obtain ⟨t, item, flattened, isList, -⟩ := round.items
    exact (leadsOut_iff stored).1 (lists item flattened isList) round
  · rintro ⟨targets, payload, ends⟩
    exact ⟨targets, fun f isStruct p => payload f p isStruct,
      fun item flattened _ => (leadsOut_iff stored).2 ends⟩

/-- A target or a payload that is missing is not reported as a list. -/
theorem Graph.checkTarget_ne_recursiveList {owner : Shape} {called : String} {m : Member}
    {n : String} : g.checkTarget owner called m ≠ .error (.recursiveList n) := by
  unfold checkTarget
  split <;> nofun

theorem Graph.checkPayload_ne_recursiveList {s : Shape} {f : Fields} {n : String} :
    checkPayload s f ≠ .error (.recursiveList n) := by
  unfold checkPayload
  split
  · nofun
  · split <;> nofun

theorem Graph.checkShape_eq_recursiveList_iff {s : Shape} {n : String}
    (stored : g.shapes.get? s.name = some s) :
    g.checkShape s = .error (.recursiveList n) ↔ s.name = n ∧ LeadsRound g s := by
  constructor
  · intro failed
    unfold checkShape at failed
    split at failed
    · rcases bind_eq_error_iff.1 failed with targets | ⟨-, -, payload⟩
      · obtain ⟨-, m, -, -, -, target⟩ := forM_eq_error_iff.1 targets
        exact absurd target checkTarget_ne_recursiveList
      · exact absurd payload checkPayload_ne_recursiveList
    · rcases bind_eq_error_iff.1 failed with target | ⟨-, -, nesting⟩
      · exact absurd target checkTarget_ne_recursiveList
      · obtain ⟨same, round⟩ := (checkNesting_eq_error_iff stored).1 nesting
        cases same
        exact ⟨rfl, round⟩
    · rcases bind_eq_error_iff.1 failed with key | ⟨-, -, value⟩
      · exact absurd key checkTarget_ne_recursiveList
      · exact absurd value checkTarget_ne_recursiveList
    · cases failed
  · rintro ⟨rfl, round⟩
    obtain ⟨t, item, flattened, isList, found⟩ := round.items
    have target : g.checkTarget s "member" item = .ok () := checkTarget_eq_ok_iff.2 ⟨t, found⟩
    unfold checkShape
    rw [isList]
    exact bind_eq_error_iff.2
      (.inr ⟨(), target, (checkNesting_eq_error_iff stored).2 ⟨rfl, round⟩⟩)

theorem Graph.checkOperation_ne_recursiveList {o : Operation} {n : String} :
    g.checkOperation o ≠ .error (.recursiveList n) := by
  unfold checkOperation
  split
  · nofun
  · intro failed
    cases (shape_eq_error_iff.1 (map_eq_error_iff.1 failed)).2

/-- A list is reported exactly if it goes round and the shapes before it have no defect. -/
theorem Graph.check_eq_recursiveList {n : String} :
    g.check = .error (.recursiveList n) ↔
      ∃ s, g.shapes.get? n = some s ∧ LeadsRound g s ∧
        ∀ k t, k < n → g.shapes.get? k = some t → Faultless g t := by
  have stored {k : String} {t : Shape} (found : g.shapes.get? k = some t) :
      g.shapes.get? t.name = some t := g.shape_named found ▸ found
  have shapes : g.check = .error (.recursiveList n) ↔
      g.shapes.values.forM g.checkShape = .error (.recursiveList n) := by
    unfold check
    rw [bind_eq_error_iff, or_iff_left]
    rintro ⟨-, -, operations⟩
    obtain ⟨-, o, -, -, -, failed⟩ := forM_eq_error_iff.1 operations
    exact checkOperation_ne_recursiveList failed
  rw [shapes, NameMap.forM_values_eq_error_iff]
  constructor
  · rintro ⟨k, s, found, failed, earlier⟩
    obtain ⟨named, round⟩ := (checkShape_eq_recursiveList_iff (stored found)).1 failed
    cases (g.shape_named found).symm.trans named
    exact ⟨s, found, round, fun k t before found =>
      (checkShape_eq_ok_iff_faultless (stored found)).1 (earlier k t before found)⟩
  · rintro ⟨s, found, round, earlier⟩
    refine ⟨n, s, found,
      (checkShape_eq_recursiveList_iff (stored found)).2 ⟨g.shape_named found, round⟩, ?_⟩
    exact fun k t before found =>
      (checkShape_eq_ok_iff_faultless (stored found)).2 (earlier k t before found)

/-! ## Reports -/

/-- What comes before a reported list does not go round, so the list is in the circle unless all of
the circle comes after it. -/
theorem contains_itself_iff {n : String} {s : Shape} (found : g.shapes.get? n = some s)
    (earlier : ∀ k t, k < n → g.shapes.get? k = some t → Faultless g t) :
    Relation.TransGen (HasItems g) s s ↔
      ∃ c, Relation.ReflTransGen (HasItems g) s c ∧ Relation.TransGen (HasItems g) c c ∧
        c.name ≤ n := by
  constructor
  · intro circle
    exact ⟨s, .refl, circle, g.shape_named found ▸ String.le_refl s.name⟩
  · rintro ⟨c, -, circle, notAfter⟩
    have stored := Graph.get?_of_transGen circle
    by_cases before : c.name < n
    · exact absurd ⟨c, .refl, circle⟩ (earlier c.name c before stored).ends
    · have same : c.name = n := String.le_antisymm notAfter (String.not_lt.1 before)
      rw [same, found] at stored
      cases stored
      exact circle

/-- A list is reported exactly if its items lead to a list that contains itself and no shape before
it in name order has a defect.  The reported list contains itself exactly if some list of the circle
that it leads to does not come after it. -/
theorem check_eq_recursiveList_iff (g : Graph) (n : String) :
    g.check = .error (.recursiveList n) ↔
      ∃ s, g.shapes.get? n = some s ∧ LeadsRound g s ∧
        (∀ k t, k < n → g.shapes.get? k = some t → Faultless g t) ∧
        (Relation.TransGen (HasItems g) s s ↔
          ∃ c, Relation.ReflTransGen (HasItems g) s c ∧ Relation.TransGen (HasItems g) c c ∧
            c.name ≤ n) := by
  rw [Graph.check_eq_recursiveList]
  constructor
  · rintro ⟨s, found, round, earlier⟩
    exact ⟨s, found, round, earlier, contains_itself_iff found earlier⟩
  · rintro ⟨s, found, round, earlier, -⟩
    exact ⟨s, found, round, earlier⟩

/-! ## Matrices

A row consists of rows, and a matrix of rows too.  Its name comes first. -/

/-- The description of matrices and rows. -/
def matrixDescription : Json :=
  .object [
    ("shapes", .object [
      ("Matrix", .object [
        ("type", .string "list"), ("member", .object [("shape", .string "Row")])]),
      ("Row", .object [
        ("type", .string "list"), ("member", .object [("shape", .string "Row")])])])]

/-- A matrix. -/
def matrix : Shape := ⟨"Matrix", .list (.element "Row") false, none, false⟩

/-- A row. -/
def row : Shape := ⟨"Row", .list (.element "Row") false, none, false⟩

/-- The graph of the description. -/
def matrixGraph : Graph := Graph.assemble .none [matrix, row] []

theorem hasItems_matrixGraph {s t : Shape} (items : HasItems matrixGraph s t)
    (listed : s = matrix ∨ s = row) : t = row := by
  obtain ⟨item, flattened, isList, found⟩ := items
  have target : matrixGraph.shapes.get? "Row" = some row := rfl
  rcases listed with rfl | rfl
  · cases isList
    exact Option.some.inj (found.symm.trans target)
  · cases isList
    exact Option.some.inj (found.symm.trans target)

/-- The matrix is reported to contain itself, and only the row does. -/
theorem matrix_not_in_circle :
    Graph.ofJson matrixDescription = .ok matrixGraph ∧
      matrixGraph.check = .error (.recursiveList "Matrix") ∧
      Graph.load matrixDescription = .error (.unsound (.recursiveList "Matrix")) ∧
      Relation.TransGen (HasItems matrixGraph) row row ∧
      ¬ ∃ s, matrixGraph.shapes.get? "Matrix" = some s ∧
        Relation.TransGen (HasItems matrixGraph) s s := by
  refine ⟨rfl, rfl, rfl, .single ⟨.element "Row", false, rfl, rfl⟩, ?_⟩
  rintro ⟨s, found, circle⟩
  have isMatrix : s = matrix := (Option.some.inj found).symm
  subst isMatrix
  -- All that comes after the matrix is the row.
  have after {t : Shape} (way : Relation.TransGen (HasItems matrixGraph) matrix t) : t = row := by
    induction way with
    | single items => exact hasItems_matrixGraph items (.inl rfl)
    | tail _ items ih => exact hasItems_matrixGraph items (.inr ih)
  exact absurd (congrArg Shape.name (after circle)) (by decide)

end WireBody.Service
