import WireBody.Proofs.Json.Following

/-!
# What a layout keeps

A document that is held against a layout comes out with the same items and names, each value as its
own layout sees it.  One that is refused has a place where it is: an item or value too many, or one
that its layout refuses.  A layout that passes nothing over keeps the document as it is, whatever it
tests on the way.

Main statements: `heldItems_some` and `heldEntries_some`, `heldItems_none` and `heldEntries_none`,
`keeps_whole`.
-/

set_option autoImplicit false

namespace WireBody.Json

open Layout (Plain)

/-! ## Documents that are not refused -/

section

variable {l : Layout} {j j' : Json}

/-- What has to be an array or object is held as one. -/
theorem structured_of_held (plain : Plain l) (structured : l.allowsScalar = false)
    (held : Held l j (some j')) :
    (∃ items items', j = .array items ∧ j' = .array items' ∧ l.allowsArray = true ∧
        HeldItems l 0 items (some items')) ∨
      ∃ entries entries', j = .object entries ∧ j' = .object entries' ∧
        HeldEntries l [] entries (some entries') := by
  obtain ⟨o, isSome, held⟩ : ∃ o, o = some j' ∧ Held l j o := ⟨_, rfl, held⟩
  cases held with
  | ignored | null | orNull | tested => cases plain
  | scalar _ _ allowed => cases structured.symm.trans allowed
  | noScalar | noArray | noObject => cases isSome
  | array _ allowed items =>
    obtain ⟨items', rfl, rfl⟩ := Option.map_eq_some_iff.1 isSome
    exact .inl ⟨_, items', rfl, rfl, allowed, items⟩
  | object _ _ entries =>
    obtain ⟨entries', rfl, rfl⟩ := Option.map_eq_some_iff.1 isSome
    exact .inr ⟨_, entries', rfl, rfl, entries⟩

/-- Items that are held stay at their places. -/
theorem heldItems_some {i : Nat} {items items' : List Json}
    (held : HeldItems l i items (some items')) :
    items'.length = items.length ∧ ∀ k v, items[k]? = some v →
      ∃ item v', l.item? (i + k) = some item ∧ items'[k]? = some v' ∧ Held item v (some v') := by
  obtain ⟨o, isSome, held⟩ : ∃ o, o = some items' ∧ HeldItems l i items o := ⟨_, rfl, held⟩
  induction items generalizing i o items' with
  | nil =>
    cases held with
    | nil =>
      cases isSome
      exact ⟨rfl, fun k v found => (nomatch found)⟩
  | cons j rest ih =>
    cases held with
    | surplus | refused => cases isSome
    | @cons _ item _ _ j' _ o part first others =>
      obtain ⟨rest', rfl, rfl⟩ := Option.map_eq_some_iff.1 isSome
      obtain ⟨length, each⟩ := ih others _ rfl others
      refine ⟨congrArg (· + 1) length, fun k v found => ?_⟩
      cases k with
      | zero =>
        cases found
        exact ⟨item, j', part, rfl, first⟩
      | succ k =>
        obtain ⟨item', v', part', found', value⟩ := each k v found
        refine ⟨item', v', ?_, found', value⟩
        rwa [← Nat.add_assoc, Nat.add_right_comm]

/-- Entries that are held stay under their names. -/
theorem heldEntries_some {before : List String} {entries entries' : List (String × Json)}
    (held : HeldEntries l before entries (some entries')) :
    List.Forall₂ (fun e e' => e'.1 = e.1 ∧ Held (l.entry e.1) e.2 (some e'.2)) entries entries' := by
  obtain ⟨o, isSome, held⟩ : ∃ o, o = some entries' ∧ HeldEntries l before entries o :=
    ⟨_, rfl, held⟩
  induction entries generalizing before o entries' with
  | nil =>
    cases held with
    | nil =>
      cases isSome
      exact .nil
  | cons e rest ih =>
    cases held with
    | again | refused => cases isSome
    | cons _ first others =>
      obtain ⟨rest', rfl, rfl⟩ := Option.map_eq_some_iff.1 isSome
      exact .cons ⟨rfl, first⟩ (ih others _ rfl others)

theorem held_of_tested {accepts : Json → Bool} (held : Held (.tested l accepts) j (some j')) :
    Held l j (some j') := by
  obtain ⟨o, isSome, held⟩ : ∃ o, o = some j' ∧ Held (.tested l accepts) j o := ⟨_, rfl, held⟩
  cases held with
  | scalar plain | noScalar plain | array plain | noArray plain | object plain | noObject plain =>
    cases plain
  | tested held =>
    obtain ⟨rfl, -⟩ := Option.filter_eq_some_iff.1 isSome
    exact held

theorem held_of_orNull (held : Held (.orNull l) j (some j')) :
    j = .null ∧ j' = .null ∨ Held l j (some j') := by
  obtain ⟨o, isSome, held⟩ : ∃ o, o = some j' ∧ Held (.orNull l) j o := ⟨_, rfl, held⟩
  cases held with
  | scalar plain | noScalar plain | array plain | noArray plain | object plain | noObject plain =>
    cases plain
  | null => exact .inl ⟨rfl, (Option.some.inj isSome).symm⟩
  | orNull _ held => exact .inr (isSome ▸ held)

end

/-! ## Documents that are refused -/

section

variable {l : Layout} {j : Json}

theorem refused_cases (plain : Plain l) (refused : Held l j none) :
    IsScalar j ∧ l.allowsScalar = false ∨
      (∃ items, j = .array items ∧ (l.allowsArray = true → HeldItems l 0 items none)) ∨
      ∃ entries, j = .object entries ∧ (l.allowsObject = true → HeldEntries l [] entries none) := by
  obtain ⟨o, isNone, held⟩ : ∃ o, o = none ∧ Held l j o := ⟨_, rfl, refused⟩
  cases held with
  | ignored | null | orNull | tested => cases plain
  | scalar => cases isNone
  | noScalar _ isScalar none => exact .inl ⟨isScalar, none⟩
  | noArray _ none => exact .inr (.inl ⟨_, rfl, fun allowed => nomatch none.symm.trans allowed⟩)
  | noObject _ none => exact .inr (.inr ⟨_, rfl, fun allowed => nomatch none.symm.trans allowed⟩)
  | array _ _ items =>
    cases Option.map_eq_none_iff.1 isNone
    exact .inr (.inl ⟨_, rfl, fun _ => items⟩)
  | object _ _ entries =>
    cases Option.map_eq_none_iff.1 isNone
    exact .inr (.inr ⟨_, rfl, fun _ => entries⟩)

/-- Items are refused for one that is refused or has no place. -/
theorem heldItems_none {i : Nat} {items : List Json} (held : HeldItems l i items none) :
    ∃ k v, items[k]? = some v ∧ ∀ item, l.item? (i + k) = some item → Held item v none := by
  obtain ⟨o, isNone, held⟩ : ∃ o, o = none ∧ HeldItems l i items o := ⟨_, rfl, held⟩
  induction items generalizing i o with
  | nil =>
    cases held with
    | nil => cases isNone
  | cons j rest ih =>
    cases held with
    | surplus none =>
      exact ⟨0, j, rfl, fun item found => by cases none.symm.trans found⟩
    | @refused _ item _ _ _ part value =>
      refine ⟨0, j, rfl, fun item' found => ?_⟩
      cases part.symm.trans found
      exact value
    | cons part first others =>
      cases Option.map_eq_none_iff.1 isNone
      obtain ⟨k, v, found, value⟩ := ih others _ rfl others
      refine ⟨k + 1, v, found, fun item part => value item ?_⟩
      rwa [← Nat.add_assoc, Nat.add_right_comm] at part

theorem refused_of_heldEntries {before : List String} {entries : List (String × Json)}
    (held : HeldEntries l before entries none) :
    ∃ earlier name v later, entries = earlier ++ (name, v) :: later ∧
      (before.contains name = true ∨ l.onlyOnce name = true ∧ name ∈ earlier.map (·.1) ∨
        Held (l.entry name) v none) := by
  obtain ⟨o, isNone, held⟩ : ∃ o, o = none ∧ HeldEntries l before entries o := ⟨_, rfl, held⟩
  induction entries generalizing before o with
  | nil =>
    cases held with
    | nil => cases isNone
  | cons e rest ih =>
    obtain ⟨name, j⟩ := e
    cases held with
    | again known => exact ⟨[], name, j, rest, rfl, .inl known⟩
    | refused _ value => exact ⟨[], name, j, rest, rfl, .inr (.inr value)⟩
    | cons new first others =>
      cases Option.map_eq_none_iff.1 isNone
      obtain ⟨earlier, name', v, later, rfl, why⟩ := ih others _ rfl others
      refine ⟨(name, j) :: earlier, name', v, later, rfl, ?_⟩
      rcases why with known | ⟨once, among⟩ | value
      · by_cases once : l.onlyOnce name = true
        · rw [if_pos once, List.contains_cons, Bool.or_eq_true] at known
          rcases known with same | known
          · cases eq_of_beq same
            exact .inr (.inl ⟨once, List.mem_cons_self⟩)
          · exact .inl known
        · rw [if_neg once] at known
          exact .inl known
      · exact .inr (.inl ⟨once, List.mem_cons_of_mem _ among⟩)
      · exact .inr (.inr value)

/-- Entries are refused for a value that is refused, or a name that may stand only once. -/
theorem heldEntries_none {entries : List (String × Json)} (held : HeldEntries l [] entries none) :
    ∃ earlier name v later, entries = earlier ++ (name, v) :: later ∧
      (l.onlyOnce name = true ∧ name ∈ earlier.map (·.1) ∨ Held (l.entry name) v none) := by
  obtain ⟨earlier, name, v, later, same, impossible | why⟩ := refused_of_heldEntries held
  · cases impossible
  · exact ⟨earlier, name, v, later, same, why⟩

/-- What is refused by a layout with a test is refused by the layout or by the test. -/
theorem refused_of_tested {accepts : Json → Bool} (refused : Held (.tested l accepts) j none) :
    Held l j none ∨ ∃ j', Held l j (some j') ∧ accepts j' = false := by
  obtain ⟨o, isNone, held⟩ : ∃ o, o = none ∧ Held (.tested l accepts) j o := ⟨_, rfl, refused⟩
  cases held with
  | scalar plain | noScalar plain | array plain | noArray plain | object plain | noObject plain =>
    cases plain
  | @tested _ _ _ o held =>
    cases o with
    | none => exact .inl held
    | some j' => exact .inr ⟨j', held, Bool.eq_false_iff.2 (Option.filter_eq_none_iff.1 isNone j' rfl)⟩

theorem refused_of_orNull (refused : Held (.orNull l) j none) : j ≠ .null ∧ Held l j none := by
  obtain ⟨o, isNone, held⟩ : ∃ o, o = none ∧ Held (.orNull l) j o := ⟨_, rfl, refused⟩
  cases held with
  | scalar plain | noScalar plain | array plain | noArray plain | object plain | noObject plain =>
    cases plain
  | null => cases isNone
  | orNull other held => exact ⟨other, isNone ▸ held⟩

theorem not_refused_ignored : ¬ Held .ignored j none := by
  intro refused
  obtain ⟨o, isNone, held⟩ : ∃ o, o = none ∧ Held .ignored j o := ⟨none, rfl, refused⟩
  cases held with
  | ignored => cases isNone
  | scalar plain | noScalar plain | array plain | noArray plain | object plain | noObject plain =>
    cases plain

end

/-! ## Layouts that keep -/

/-- What the layout does not refuse stays as it is. -/
def Keeps (l : Layout) : Prop := ∀ j j', Held l j (some j') → j' = j

section

variable {l : Layout}

theorem keeps_scalar : Keeps .scalar := by
  intro j j' held
  obtain ⟨o, isSome, held⟩ : ∃ o, o = some j' ∧ Held .scalar j o := ⟨_, rfl, held⟩
  cases held with
  | scalar => exact (Option.some.inj isSome).symm
  | noScalar | noArray | noObject => cases isSome
  | array _ allowed | object _ allowed => cases allowed

theorem Keeps.tested (keeps : Keeps l) (accepts : Json → Bool) : Keeps (.tested l accepts) :=
  fun j j' held => keeps j j' (held_of_tested held)

theorem Keeps.orNull (keeps : Keeps l) : Keeps (.orNull l) := by
  intro j j' held
  rcases held_of_orNull held with ⟨rfl, rfl⟩ | held
  · rfl
  · exact keeps j j' held

theorem items_eq_of_held {items items' : List Json}
    (keeps : ∀ i item, l.item? i = some item → Keeps item)
    (held : HeldItems l 0 items (some items')) : items' = items := by
  obtain ⟨length, each⟩ := heldItems_some held
  refine List.ext_getElem? fun k => ?_
  cases found : items[k]? with
  | none =>
    rw [List.getElem?_eq_none_iff] at found ⊢
    omega
  | some v =>
    obtain ⟨item, v', part, found', value⟩ := each k v found
    rw [found', keeps _ item part v v' value]

theorem entries_eq_of_held {entries entries' : List (String × Json)}
    (keeps : ∀ name, Keeps (l.entry name)) (held : HeldEntries l [] entries (some entries')) :
    entries' = entries := by
  have each := heldEntries_some held
  clear held
  induction each with
  | nil => rfl
  | cons first _ ih => rw [Prod.ext first.1 (keeps _ _ _ first.2), ih]

theorem Keeps.entries (keeps : Keeps l) : Keeps (.entries l) := by
  intro j j' held
  rcases structured_of_held .entries rfl held with
    ⟨_, _, -, -, impossible, -⟩ | ⟨entries, entries', rfl, rfl, each⟩
  · cases impossible
  · rw [entries_eq_of_held (l := .entries l) (fun _ => keeps) each]

end

mutual

theorem eq_of_held_whole {j : Json} {o : Option Json} {l : Layout} (held : Held l j o)
    (isWhole : l = .whole) : o = some j := by
  cases held with
  | ignored | null | orNull | tested => cases isWhole
  | scalar => rfl
  | noScalar _ _ refused | noArray _ refused | noObject _ refused =>
    subst isWhole
    cases refused
  | array _ _ items => exact congrArg (Option.map Json.array) (eq_of_heldItems_whole items isWhole)
  | object _ _ entries =>
    exact congrArg (Option.map Json.object) (eq_of_heldEntries_whole entries isWhole rfl)

theorem eq_of_heldItems_whole {i : Nat} {items : List Json} {o : Option (List Json)} {l : Layout}
    (held : HeldItems l i items o) (isWhole : l = .whole) : o = some items := by
  cases held with
  | nil => rfl
  | surplus none =>
    subst isWhole
    cases none
  | refused part value =>
    subst isWhole
    cases part
    cases eq_of_held_whole value rfl
  | cons part value others =>
    rw [eq_of_heldItems_whole others isWhole]
    subst isWhole
    cases part
    cases eq_of_held_whole value rfl
    rfl

theorem eq_of_heldEntries_whole {before : List String} {entries : List (String × Json)}
    {o : Option (List (String × Json))} {l : Layout} (held : HeldEntries l before entries o)
    (isWhole : l = .whole) (noName : before = []) : o = some entries := by
  cases held with
  | nil => rfl
  | again known =>
    subst noName
    cases known
  | refused _ value =>
    subst isWhole
    cases eq_of_held_whole value rfl
  | cons _ value others =>
    subst isWhole
    rw [eq_of_heldEntries_whole others rfl noName]
    cases eq_of_held_whole value rfl
    rfl

end

theorem keeps_whole : Keeps .whole :=
  fun _ _ held => Option.some.inj (eq_of_held_whole held rfl)

theorem Keeps.tagged {tag : String} {value : Layout} (keeps : Keeps value) :
    Keeps (.tagged tag value) := by
  intro j j' held
  rcases structured_of_held .tagged rfl held with
    ⟨items, items', rfl, rfl, -, each⟩ | ⟨entries, entries', rfl, rfl, each⟩
  · rw [items_eq_of_held (fun i item part => ?_) each]
    cases i with
    | zero => cases part; exact keeps
    | succ i => cases part; exact keeps_whole
  · rw [entries_eq_of_held (fun name => ?_) each]
    simp only [Layout.entry]
    split
    · exact keeps
    · exact keeps_whole

end WireBody.Json
