/-!
# Maps keyed by name

Shapes, operations and routines are all found by name and listed in name order.  A `NameMap` keeps
its entries in strictly increasing order of their names (by code point, which is also the order of
their UTF-8 bytes), so a map has one entry a name and one listing.

Main statements: `NameMap.get?_insert` says what an insertion changes, and `NameMap.ext_get?` that a
map is determined by its answers.
-/

set_option autoImplicit false

namespace WireBody

/-! ## Entries in name order -/

/-- A lookup stops at the first entry of the name. -/
theorem lookup_cons_ite {α : Type} (k n : String) (b : α) (rest : List (String × α)) :
    List.lookup k ((n, b) :: rest) = if k = n then some b else List.lookup k rest := by
  by_cases h : k = n
  · simp [h]
  · simp [List.lookup_cons, h, beq_eq_false_iff_ne.2 h]

/-- What is found in a list is smaller than the list. -/
theorem sizeOf_lt_of_lookup {α : Type} [SizeOf α] {k : String} {a : α} :
    ∀ {l : List (String × α)}, l.lookup k = some a → sizeOf a < sizeOf l
  | [], h => by cases h
  | (n, b) :: rest, h => by
    rw [lookup_cons_ite] at h
    split at h
    · cases h
      simp only [List.cons.sizeOf_spec, Prod.mk.sizeOf_spec]
      omega
    · have := sizeOf_lt_of_lookup h
      simp only [List.cons.sizeOf_spec]
      omega

/-- Put an entry at its place in a list in name order, replacing the entry of the same name. -/
def insertByName {α : Type} (name : String) (a : α) : List (String × α) → List (String × α)
  | [] => [(name, a)]
  | (n, b) :: rest =>
    if name < n then (name, a) :: (n, b) :: rest
    else if name = n then (name, a) :: rest
    else (n, b) :: insertByName name a rest

theorem mem_insertByName {α : Type} {name : String} {a : α} {e : String × α} :
    ∀ {l : List (String × α)}, e ∈ insertByName name a l → e = (name, a) ∨ e ∈ l
  | [], h => .inl (by simpa [insertByName] using h)
  | (n, b) :: rest, h => by
    simp only [insertByName] at h
    split at h
    · simpa using h
    · split at h
      · rcases List.mem_cons.1 h with h | h
        · exact .inl h
        · exact .inr (List.mem_cons_of_mem _ h)
      · rcases List.mem_cons.1 h with h | h
        · exact .inr (h ▸ List.mem_cons_self)
        · rcases mem_insertByName h with h | h
          · exact .inl h
          · exact .inr (List.mem_cons_of_mem _ h)

theorem pairwise_insertByName {α : Type} (name : String) (a : α) :
    ∀ {l : List (String × α)}, l.Pairwise (fun x y => x.1 < y.1) →
      (insertByName name a l).Pairwise (fun x y => x.1 < y.1)
  | [], _ => by simp [insertByName]
  | (n, b) :: rest, h => by
    rw [List.pairwise_cons] at h
    simp only [insertByName]
    split
    · rename_i lt
      refine List.pairwise_cons.2 ⟨fun e he => ?_, List.pairwise_cons.2 h⟩
      rcases List.mem_cons.1 he with he | he
      · exact he ▸ lt
      · exact String.lt_trans lt (h.1 e he)
    · split
      · rename_i eq
        exact List.pairwise_cons.2 ⟨fun e he => eq ▸ h.1 e he, h.2⟩
      · rename_i lt ne
        refine List.pairwise_cons.2 ⟨fun e he => ?_, pairwise_insertByName name a h.2⟩
        rcases mem_insertByName he with he | he
        · refine he ▸ String.not_le.1 fun le => ne (String.le_antisymm le ?_)
          exact String.not_lt.1 lt
        · exact h.1 e he

theorem lookup_insertByName {α : Type} (name : String) (a : α) (k : String) :
    ∀ l : List (String × α),
      (insertByName name a l).lookup k = if k = name then some a else l.lookup k
  | [] => by simp [insertByName, lookup_cons_ite]
  | (n, b) :: rest => by
    simp only [insertByName]
    split
    · rw [lookup_cons_ite]
    · split
      · rename_i eq
        subst eq
        rw [lookup_cons_ite, lookup_cons_ite]
        split <;> rfl
      · rename_i ne
        rw [lookup_cons_ite, lookup_cons_ite, lookup_insertByName name a k rest]
        by_cases h : k = n
        · subst h
          rw [if_pos rfl, if_pos rfl, if_neg (Ne.symm ne)]
        · rw [if_neg h, if_neg h]

theorem length_le_length_insertByName {α : Type} (name : String) (a : α) :
    ∀ l : List (String × α), l.length ≤ (insertByName name a l).length
  | [] => Nat.zero_le _
  | (n, b) :: rest => by
    have below := length_le_length_insertByName name a rest
    simp only [insertByName]
    split
    · exact Nat.le_succ _
    · split
      · exact Nat.le_refl _
      · exact Nat.succ_le_succ below

/-! ## Counting -/

/-- A test that is stricter, and strictly so at some member, passes fewer members of a list. -/
theorem countP_lt_countP {α : Type} {p q : α → Bool} (le : ∀ a, p a = true → q a = true) {a : α} :
    ∀ {l : List α}, a ∈ l → q a = true → p a = false → l.countP p < l.countP q
  | [], member, _, _ => nomatch member
  | b :: rest, member, passed, fails => by
    have below : rest.countP p ≤ rest.countP q := List.countP_mono_left fun b _ h => le b h
    rw [List.countP_cons, List.countP_cons]
    rcases List.mem_cons.1 member with rfl | later
    · rw [passed, fails]
      simp only [Bool.false_eq_true, ↓reduceIte]
      omega
    · have less := countP_lt_countP le later passed fails
      by_cases passes : p b = true
      · rw [if_pos passes, if_pos (le b passes)]
        omega
      · rw [if_neg passes]
        omega

/-! ## The type -/

/-- A finite map from names, listed in name order. -/
structure NameMap (α : Type) where
  /-- The entries, names strictly increasing. -/
  entries : List (String × α)
  ordered : entries.Pairwise (fun a b => a.1 < b.1)

namespace NameMap

variable {α : Type}

/-- Two maps with the same entries are the same. -/
theorem ext_entries {m n : NameMap α} (h : m.entries = n.entries) : m = n := by
  cases m; cases n; cases h; rfl

instance [DecidableEq α] : DecidableEq (NameMap α) := fun m n =>
  if h : m.entries = n.entries then isTrue (ext_entries h)
  else isFalse fun e => h (congrArg entries e)

/-- The map without entries. -/
def empty : NameMap α := ⟨[], .nil⟩

instance : Inhabited (NameMap α) := ⟨empty⟩

/-- The value stored under a name. -/
def get? (m : NameMap α) (name : String) : Option α := m.entries.lookup name

/-- Whether something is stored under a name. -/
def contains (m : NameMap α) (name : String) : Bool := (m.get? name).isSome

/-- Store a value under a name, in place of what the name held. -/
def insert (m : NameMap α) (name : String) (a : α) : NameMap α :=
  ⟨insertByName name a m.entries, pairwise_insertByName name a m.ordered⟩

/-- Store the entries of a list one after the other: of two of one name the later one stays. -/
def ofList (entries : List (String × α)) : NameMap α :=
  entries.foldl (fun m e => m.insert e.1 e.2) empty

/-- The names, in order. -/
def keys (m : NameMap α) : List String := m.entries.map (·.1)

/-- The values, in the order of their names. -/
def values (m : NameMap α) : List α := m.entries.map (·.2)

/-- The number of entries. -/
def size (m : NameMap α) : Nat := m.entries.length

/-! ## Lookup -/

@[simp] theorem get?_empty (k : String) : (empty : NameMap α).get? k = none := rfl

theorem get?_insert (m : NameMap α) (name : String) (a : α) (k : String) :
    (m.insert name a).get? k = if k = name then some a else m.get? k :=
  lookup_insertByName name a k m.entries

@[simp] theorem get?_insert_self (m : NameMap α) (name : String) (a : α) :
    (m.insert name a).get? name = some a := by
  simp [get?_insert]

theorem get?_insert_of_ne (m : NameMap α) {name k : String} (a : α) (h : k ≠ name) :
    (m.insert name a).get? k = m.get? k := by
  simp [get?_insert, h]

/-- Nothing is lost by storing. -/
theorem size_le_size_insert (m : NameMap α) (name : String) (a : α) :
    m.size ≤ (m.insert name a).size :=
  length_le_length_insertByName name a m.entries

theorem contains_iff {m : NameMap α} {k : String} : m.contains k = true ↔ ∃ a, m.get? k = some a :=
  Option.isSome_iff_exists

theorem contains_insert (m : NameMap α) (name : String) (a : α) (k : String) :
    (m.insert name a).contains k = (decide (k = name) || m.contains k) := by
  by_cases h : k = name <;> simp [contains, get?_insert, h]

/-- Being listed under a name and being found under it are the same. -/
theorem get?_eq_some_iff {m : NameMap α} {k : String} {a : α} :
    m.get? k = some a ↔ (k, a) ∈ m.entries := by
  obtain ⟨l, h⟩ := m
  simp only [get?]
  induction l with
  | nil => simp
  | cons e rest ih =>
    obtain ⟨n, b⟩ := e
    rw [List.pairwise_cons] at h
    rw [lookup_cons_ite]
    by_cases hk : k = n
    · subst hk
      have : (k, a) ∉ rest := fun hm => String.lt_irrefl k (h.1 _ hm)
      simp [this, eq_comm]
    · simp [hk, ih h.2]

theorem mem_keys_iff {m : NameMap α} {k : String} : k ∈ m.keys ↔ ∃ a, m.get? k = some a := by
  simp [keys, get?_eq_some_iff]

theorem mem_values_iff {m : NameMap α} {a : α} : a ∈ m.values ↔ ∃ k, m.get? k = some a := by
  simp [values, get?_eq_some_iff]

/-! ## Extensionality -/

private theorem head_eq {n k : String} {a b : α} {l r : List (String × α)}
    (hl : ((n, a) :: l).Pairwise (fun x y => x.1 < y.1))
    (hr : ((k, b) :: r).Pairwise (fun x y => x.1 < y.1))
    (h : ∀ e, e ∈ (n, a) :: l ↔ e ∈ (k, b) :: r) : (n, a) = (k, b) := by
  rw [List.pairwise_cons] at hl hr
  rcases List.mem_cons.1 ((h (n, a)).1 List.mem_cons_self) with e | mem
  · exact e
  · rcases List.mem_cons.1 ((h (k, b)).2 List.mem_cons_self) with e | mem'
    · exact e.symm
    · exact absurd (String.lt_trans (hl.1 _ mem') (hr.1 _ mem)) (String.lt_irrefl n)

private theorem entries_eq : ∀ {l r : List (String × α)},
    l.Pairwise (fun x y => x.1 < y.1) → r.Pairwise (fun x y => x.1 < y.1) →
    (∀ e, e ∈ l ↔ e ∈ r) → l = r
  | [], [], _, _, _ => rfl
  | [], e :: _, _, _, h => absurd ((h e).2 List.mem_cons_self) List.not_mem_nil
  | e :: _, [], _, _, h => absurd ((h e).1 List.mem_cons_self) List.not_mem_nil
  | (n, a) :: l, (k, b) :: r, hl, hr, h => by
    have head := head_eq hl hr h
    rw [head] at hl h ⊢
    rw [List.pairwise_cons] at hl hr
    refine congrArg _ (entries_eq hl.2 hr.2 fun e => ?_)
    constructor
    · intro mem
      rcases List.mem_cons.1 ((h e).1 (List.mem_cons_of_mem _ mem)) with eq | mem'
      · exact absurd (hl.1 _ mem) (by rw [eq]; exact String.lt_irrefl k)
      · exact mem'
    · intro mem
      rcases List.mem_cons.1 ((h e).2 (List.mem_cons_of_mem _ mem)) with eq | mem'
      · exact absurd (hr.1 _ mem) (by rw [eq]; exact String.lt_irrefl k)
      · exact mem'

/-- A map is determined by what it answers for each name. -/
theorem ext_get? {m n : NameMap α} (h : ∀ k, m.get? k = n.get? k) : m = n :=
  ext_entries (entries_eq m.ordered n.ordered fun e => by
    rw [← get?_eq_some_iff (a := e.2) (k := e.1), h, get?_eq_some_iff])

theorem insert_comm {m : NameMap α} {a b : α} {k n : String} (apart : k ≠ n) :
    (m.insert k a).insert n b = (m.insert n b).insert k a := by
  refine ext_get? fun l => ?_
  rw [get?_insert, get?_insert, get?_insert, get?_insert]
  by_cases first : l = n
  · rw [if_pos first, if_neg fun second => apart (second.symm.trans first), if_pos first]
  · rw [if_neg first, if_neg first]

end NameMap

end WireBody
