import Mathlib.Logic.Relation
import WireBody.Proofs.Service.Described
import WireBody.Proofs.Service.Supported

/-!
# Well-formed graphs

A graph may be put together from any shapes and operations, in any order, so that at first nothing
is known of it: what a member points to may be missing, and lists may consist of each other in a
circle.  The check finds this out.  From each list it walks on through the items, and it notices a
circle wherever the walk enters one, since it remembers every list that it has met.

Main definitions: `Graph.WellFormed` says what a graph has to be, and `Graph.Walk` is a round of the
walk.  Main statement: `check_ok_iff_wellFormed`.
-/

set_option autoImplicit false

namespace WireBody.Service

namespace Graph

/-- A graph in which all that is pointed to is there and lists come to an end. -/
structure WellFormed (g : Graph) : Prop where
  /-- The members of structures, and those of lists and maps, point to shapes. -/
  targets : ∀ n s, g.shapes.get? n = some s → ∀ m ∈ s.pointers,
    ∃ t, g.shapes.get? m.target = some t
  /-- A declared payload is a member. -/
  payloads : ∀ n s f p, g.shapes.get? n = some s → s.kind = .struct f → f.payload = some p →
    ∃ m ∈ f.members, m.name = some p
  /-- The items of a list, their items, and so on, come to a shape that is no list. -/
  lists : ∀ n s, g.shapes.get? n = some s → s.isList = true → ∃ flat e, LeadsTo g s flat e
  /-- The input of an operation is a shape. -/
  inputs : ∀ n o input, g.operations.get? n = some o → o.input = some input →
    ∃ s, g.shapes.get? input = some s

variable {g : Graph}

/-! ## The walk -/

/-- A list is gone through unless its items are of a shape that was met. -/
theorem leadsOut_of_list {seen : List String} {s next : Shape} {item : Member} {flattened : Bool}
    (isList : s.kind = .list item flattened) (found : g.shapes.get? item.target = some next) :
    g.leadsOut seen s = true ↔ next.name ∉ seen ∧ g.leadsOut (next.name :: seen) next = true := by
  fun_cases leadsOut g seen s with
  | case1 item' flattened' isList' missing =>
    cases isList.symm.trans isList'
    cases found.symm.trans missing
  | case2 item' flattened' isList' next' found' met =>
    cases isList.symm.trans isList'
    cases found.symm.trans found'
    exact iff_of_false Bool.false_ne_true fun h => h.1 (List.contains_iff_mem.1 met)
  | case3 item' flattened' isList' next' found' new =>
    cases isList.symm.trans isList'
    cases found.symm.trans found'
    exact (and_iff_right fun member => new (List.contains_iff_mem.2 member)).symm
  | case4 other => exact absurd isList (other item flattened)

/-- A round of the walk leads from a state, the names that were met and the shape that it has come
to, to the next one.  The next state stands first. -/
inductive Walk (g : Graph) : List String × Shape → List String × Shape → Prop
  | on {seen : List String} {s next : Shape} {item : Member} {flattened : Bool} :
      s.kind = .list item flattened → g.shapes.get? item.target = some next → next.name ∉ seen →
      Walk g (next.name :: seen, next) (seen, s)

/-- There is no endless walk in any graph, wherever it starts. -/
theorem wellFounded_walk (g : Graph) : WellFounded (Walk g) := by
  refine Subrelation.wf ?_ (measure fun state : List String × Shape => g.unmet state.1).wf
  rintro next state ⟨-, found, new⟩
  exact unmet_cons_lt (g.shape_named found ▸ found) (by simpa using new)

/-- Where the walk stops, and whether it came to an end there or returned to a list. -/
inductive WalkStops (g : Graph) : List String × Shape → Bool → Prop
  | single {seen : List String} {s : Shape} : s.isList = false → WalkStops g (seen, s) true
  | missing {seen : List String} {s : Shape} {item : Member} {flattened : Bool} :
      s.kind = .list item flattened → g.shapes.get? item.target = none →
      WalkStops g (seen, s) true
  | returned {seen : List String} {s next : Shape} {item : Member} {flattened : Bool} :
      s.kind = .list item flattened → g.shapes.get? item.target = some next → next.name ∈ seen →
      WalkStops g (seen, s) false

/-- The walk leads from each state to where it stops. -/
theorem walkStops_of_leadsOut (g : Graph) (seen : List String) (s : Shape) :
    ∃ last, Relation.ReflTransGen (fun state next => Walk g next state) (seen, s) last ∧
      WalkStops g last (g.leadsOut seen s) := by
  fun_induction leadsOut g seen s with
  | case1 seen s item flattened isList missing => exact ⟨_, .refl, .missing isList missing⟩
  | case2 seen s item flattened isList next found met =>
    exact ⟨_, .refl, .returned isList found (by simpa using met)⟩
  | case3 seen s item flattened isList next found new ih =>
    obtain ⟨last, rounds, stops⟩ := ih
    exact ⟨last, .head (.on isList found (by simpa using new)) rounds, stops⟩
  | case4 seen s other =>
    exact ⟨_, .refl, .single (Shape.isList_eq_false_iff.2 other)⟩

/-! ## Ends and returns -/

/-- Lists that come to an end do not come back to where they start. -/
theorem not_returns_of_leadsTo {s e : Shape} {flat : Bool} (leads : LeadsTo g s flat e) :
    ¬ Relation.TransGen (HasItems g) s s := by
  induction leads with
  | @here s single =>
    intro returns
    obtain ⟨next, ⟨item, flattened, isList, -⟩, -⟩ := Relation.TransGen.head'_iff.1 returns
    exact absurd isList (Shape.isList_eq_false_iff.1 single _ _)
  | @item s next e item flattened flat isList found _ ih =>
    -- A circle through `s` goes through its items, so it is a circle through these as well.
    intro returns
    obtain ⟨next', ⟨item', flattened', isList', found'⟩, back⟩ :=
      Relation.TransGen.head'_iff.1 returns
    cases isList.symm.trans isList'
    cases found.symm.trans found'
    exact ih (.tail' back ⟨item, flattened, isList, found⟩)

/-- What a walk comes to is found under its own name. -/
theorem get?_of_transGen {s t : Shape} (after : Relation.TransGen (HasItems g) s t) :
    g.shapes.get? t.name = some t := by
  obtain ⟨last, -, item, flattened, -, found⟩ := Relation.TransGen.tail'_iff.1 after
  exact g.shape_named found ▸ found

/-- A shape of the graph whose lists come to an end does not come after itself. -/
theorem name_ne_of_transGen {s t e : Shape} {flat : Bool} (leads : LeadsTo g s flat e)
    (stored : g.shapes.get? s.name = some s) (after : Relation.TransGen (HasItems g) s t) :
    t.name ≠ s.name := by
  intro same
  have found := get?_of_transGen after
  rw [same, stored] at found
  cases found
  exact not_returns_of_leadsTo leads after

/-- If lists come to an end and none of them was met before, then the walk comes to the end. -/
theorem leadsOut_of_leadsTo {seen : List String} {s e : Shape} {flat : Bool}
    (leads : LeadsTo g s flat e)
    (new : ∀ t, Relation.TransGen (HasItems g) s t → t.name ∉ seen) :
    g.leadsOut seen s = true := by
  induction leads generalizing seen with
  | @here s single =>
    unfold leadsOut
    split
    · rename_i isList
      exact absurd isList (Shape.isList_eq_false_iff.1 single _ _)
    · rfl
  | @item s next e item flattened flat isList found leads ih =>
    have step : HasItems g s next := ⟨item, flattened, isList, found⟩
    refine (leadsOut_of_list isList found).2 ⟨new next (.single step), ih fun t after => ?_⟩
    have other := name_ne_of_transGen leads (g.shape_named found ▸ found) after
    exact List.not_mem_cons_of_ne_of_not_mem other (new t (.head step after))

/-- Where items are not missing, a walk that comes to an end comes to a shape that is no list. -/
theorem exists_leadsTo_of_leadsOut
    (targets : ∀ {s : Shape} {item : Member} {flattened : Bool}, g.shapes.get? s.name = some s →
      s.kind = .list item flattened → ∃ t, g.shapes.get? item.target = some t)
    {seen : List String} {s : Shape} (stored : g.shapes.get? s.name = some s)
    (ends : g.leadsOut seen s = true) : ∃ flat e, LeadsTo g s flat e := by
  fun_induction leadsOut g seen s with
  | case1 seen s item flattened isList missing =>
    obtain ⟨t, found⟩ := targets stored isList
    cases missing.symm.trans found
  | case2 => cases ends
  | case3 seen s item flattened isList next found new ih =>
    obtain ⟨flat, e, leads⟩ := ih (g.shape_named found ▸ found) ends
    exact ⟨_, e, .item isList found leads⟩
  | case4 seen s other =>
    exact ⟨true, s, .here (Shape.isList_eq_false_iff.2 other)⟩

/-! ## The check -/

theorem wellFormed_of_check (checked : g.check = .ok ()) : g.WellFormed := by
  obtain ⟨shapes, operations⟩ := check_eq_ok_iff.1 checked
  have each {n : String} {s : Shape} (found : g.shapes.get? n = some s) :=
    checkShape_eq_ok_iff.1 (shapes n s found)
  constructor
  · intro n s found
    exact (each found).1
  · intro n s f p found isStruct
    exact (each found).2.1 f isStruct p
  · intro n s found isList
    obtain ⟨item, flattened, isList⟩ := Shape.isList_iff.1 isList
    exact exists_leadsTo_of_leadsOut (sound_of_check checked).items (g.shape_named found ▸ found)
      ((each found).2.2 item flattened isList)
  · intro n o input listed
    exact checkOperation_eq_ok_iff.1 (operations n o listed) input

theorem check_of_wellFormed (formed : g.WellFormed) : g.check = .ok () := by
  refine check_eq_ok_iff.2 ⟨fun n s found => ?_, fun n o listed => ?_⟩
  · refine checkShape_eq_ok_iff.2 ⟨formed.targets n s found, ?_, ?_⟩
    · intro f isStruct p
      exact formed.payloads n s f p found isStruct
    · intro item flattened isList
      obtain ⟨flat, e, leads⟩ := formed.lists n s found (Shape.isList_iff.2 ⟨_, _, isList⟩)
      refine leadsOut_of_leadsTo leads fun t after => ?_
      rw [List.mem_singleton]
      exact name_ne_of_transGen leads (g.shape_named found ▸ found) after
  · exact checkOperation_eq_ok_iff.2 fun input => formed.inputs n o input listed

/-- The check of any graph, whatever insertions it comes from, gives an answer, and it passes exactly
the well-formed graphs.  There is no endless walk through lists, even where these lead back to each
other or to nothing: every walk from a list comes to where it stops, and the list is reported unless
it stops there at an end. -/
theorem check_ok_iff_wellFormed (g : Graph) :
    WellFounded (Walk g) ∧
    (∀ s, ∃ last ended,
      Relation.ReflTransGen (fun state next => Walk g next state) ([s.name], s) last ∧
      WalkStops g last ended ∧
      g.checkNesting s = if ended then .ok () else .error (.recursiveList s.name)) ∧
    (g.check = .ok () ↔ g.WellFormed) := by
  refine ⟨wellFounded_walk g, fun s => ?_, wellFormed_of_check, check_of_wellFormed⟩
  obtain ⟨last, rounds, stops⟩ := walkStops_of_leadsOut g [s.name] s
  exact ⟨last, g.leadsOut [s.name] s, rounds, stops, rfl⟩

/-- A list of lists that go round in a circle is reported although it is not in the circle itself. -/
example :
    (((Graph.empty .none).insertShape ⟨"Rows", .list (.element "Row") false, none, false⟩
      ).insertShape ⟨"Row", .list (.element "Row") true, none, false⟩).checkNesting
        ⟨"Rows", .list (.element "Row") false, none, false⟩ = .error (.recursiveList "Rows") :=
  rfl

end Graph

end WireBody.Service
