import Mathlib.Data.List.Induction
import Mathlib.Data.List.Nodup
import WireBody.Entries

/-!
# What collecting keeps

Collecting entries gives each name once, in the order in which the names first come, with its last
value.  It makes up neither names nor values, and entries whose names are distinct already stay as
they are.  What is found of a name that stands once does not depend on the order of entries.

A map of entries has the last value of each name; `NameMap.entries_ofList_map` says that it does not
matter whether values are worked on before or after.
-/

set_option autoImplicit false

namespace WireBody

variable {α : Type}

/-! ## Finding entries -/

/-- Another value at some place changes what is found of its name alone, if anything. -/
theorem lookup_replaced (before after : List (String × α)) (name k : String) (v w : α) :
    (before ++ (name, v) :: after).lookup k = (before ++ (name, w) :: after).lookup k ∨
      name = k ∧ (before ++ (name, v) :: after).lookup k = some v ∧
        (before ++ (name, w) :: after).lookup k = some w := by
  rw [List.lookup_append, List.lookup_append, lookup_cons_ite, lookup_cons_ite]
  cases before.lookup k with
  | some u => exact .inl rfl
  | none =>
    by_cases h : k = name
    · rw [if_pos h, if_pos h]
      exact .inr ⟨h.symm, rfl, rfl⟩
    · rw [if_neg h, if_neg h]
      exact .inl rfl

/-- An entry of another name is not in the way. -/
theorem lookup_inserted (before after : List (String × α)) {name k : String} (v : α)
    (other : k ≠ name) :
    (before ++ (name, v) :: after).lookup k = (before ++ after).lookup k := by
  rw [List.lookup_append, List.lookup_append, lookup_cons_ite, if_neg other]

/-- What is found under a name is listed under it. -/
theorem mem_of_lookup {name : String} {a : α} :
    ∀ {l : List (String × α)}, l.lookup name = some a → (name, a) ∈ l
  | [], found => by cases found
  | (n, b) :: rest, found => by
    rw [lookup_cons_ite] at found
    split at found
    · rename_i same
      cases found
      exact same ▸ List.mem_cons_self
    · exact List.mem_cons_of_mem _ (mem_of_lookup found)

theorem lookup_eq_head?_filter (l : List (String × α)) (k : String) :
    l.lookup k = (l.filter fun e => e.1 = k).head?.map (·.2) := by
  induction l with
  | nil => rfl
  | cons e rest ih =>
    rw [lookup_cons_ite, List.filter_cons]
    by_cases same : k = e.1
    · rw [if_pos same, if_pos (decide_eq_true same.symm)]
      rfl
    · rw [if_neg same, if_neg (mt of_decide_eq_true (Ne.symm same)), ih]

/-- What passes a test only once stands nowhere else after a change of order. -/
theorem filter_eq_of_perm {β : Type} {l l' : List β} {p : β → Bool} (moved : l.Perm l')
    (once : l.countP p ≤ 1) : l.filter p = l'.filter p := by
  have moved := moved.filter p
  rw [List.countP_eq_length_filter] at once
  match kept : l.filter p with
  | [] => rw [kept] at moved; exact (List.nil_perm.1 moved).symm
  | [b] => rw [kept] at moved; exact List.singleton_perm.1 moved
  | _ :: _ :: _ => rw [kept] at once; exact absurd once (by simp)

/-- The order of entries does not matter to what is found of a name that stands once. -/
theorem lookup_eq_of_perm {l l' : List (String × α)} (moved : l.Perm l') {k : String}
    (once : (l.countP fun e => e.1 = k) ≤ 1) : l.lookup k = l'.lookup k := by
  rw [lookup_eq_head?_filter, lookup_eq_head?_filter, filter_eq_of_perm moved once]

/-- A name stands at most once among distinct ones. -/
theorem countP_names_le_one {l : List (String × α)} (distinct : (l.map (·.1)).Nodup) (k : String) :
    (l.countP fun e => e.1 = k) ≤ 1 := by
  have once := List.nodup_iff_count_le_one.1 distinct k
  rwa [List.count_eq_countP, List.countP_map] at once

/-! ## Names and values -/

theorem mem_names_setEntries {k : String} {entries : List (String × α)} :
    ∀ {start : List (String × α)}, k ∈ (setEntries start entries).map (·.1) ↔
      k ∈ entries.map (·.1) ∨ k ∈ start.map (·.1) := by
  induction entries with
  | nil => intro start; simp [setEntries]
  | cons e rest ih =>
    intro start
    have unfolded : setEntries start (e :: rest) = setEntries (setEntry e.1 e.2 start) rest := rfl
    rw [unfolded, ih, mem_names_setEntry, List.map_cons, List.mem_cons]
    exact or_left_comm.trans or_assoc.symm

theorem mem_names_collect {k : String} {entries : List (String × α)} :
    k ∈ (collect entries).map (·.1) ↔ k ∈ entries.map (·.1) := by
  rw [collect, mem_names_setEntries, List.map_nil]
  exact or_iff_left List.not_mem_nil

theorem mem_values_setEntry {name : String} {a b : α} {l : List (String × α)}
    (member : b ∈ (setEntry name a l).map (·.2)) : b = a ∨ b ∈ l.map (·.2) := by
  induction l with
  | nil => exact .inl (by simpa [setEntry] using member)
  | cons e rest ih =>
    rw [setEntry] at member
    split at member
    · rcases List.mem_cons.1 member with same | member
      · exact .inl same
      · exact .inr (List.mem_cons_of_mem _ member)
    · rcases List.mem_cons.1 member with same | member
      · exact .inr (same ▸ List.mem_cons_self)
      · exact (ih member).imp_right (List.mem_cons_of_mem _)

theorem mem_values_setEntries {b : α} {entries : List (String × α)} :
    ∀ {start : List (String × α)}, b ∈ (setEntries start entries).map (·.2) →
      b ∈ entries.map (·.2) ∨ b ∈ start.map (·.2) := by
  induction entries with
  | nil => exact fun member => .inr member
  | cons e rest ih =>
    intro start member
    rcases ih member with member | member
    · exact .inl (List.mem_cons_of_mem _ member)
    · rcases mem_values_setEntry member with same | member
      · exact .inl (same ▸ List.mem_cons_self)
      · exact .inr member

theorem mem_values_collect {b : α} {entries : List (String × α)}
    (member : b ∈ (collect entries).map (·.2)) : b ∈ entries.map (·.2) :=
  (mem_values_setEntries member).resolve_right List.not_mem_nil

/-! ## Distinct names -/

theorem setEntry_of_new {name : String} {a : α} {l : List (String × α)}
    (new : name ∉ l.map (·.1)) : setEntry name a l = l ++ [(name, a)] := by
  induction l with
  | nil => rfl
  | cons e rest ih =>
    rw [List.map_cons, List.mem_cons, not_or] at new
    rw [setEntry, if_neg fun same => new.1 same.symm, ih new.2, List.cons_append]

theorem setEntries_of_nodup {entries : List (String × α)} :
    ∀ {start : List (String × α)}, ((start ++ entries).map (·.1)).Nodup →
      setEntries start entries = start ++ entries := by
  induction entries with
  | nil => intro start _; simp [setEntries]
  | cons e rest ih =>
    intro start distinct
    have new : e.1 ∉ start.map (·.1) := by
      rw [List.map_append, List.nodup_append] at distinct
      exact fun member => distinct.2.2 _ member _ List.mem_cons_self rfl
    have unfolded : setEntries start (e :: rest) = setEntries (setEntry e.1 e.2 start) rest := rfl
    have moved : start ++ [e] ++ rest = start ++ e :: rest := by simp
    rw [unfolded, setEntry_of_new new, ih (moved ▸ distinct), moved]

/-- Entries with distinct names stay as they are. -/
theorem collect_of_nodup {entries : List (String × α)} (distinct : (entries.map (·.1)).Nodup) :
    collect entries = entries :=
  setEntries_of_nodup distinct

/-! ## Order and last values -/

theorem names_setEntry {name : String} {a : α} {l : List (String × α)} :
    (setEntry name a l).map (·.1) =
      if name ∈ l.map (·.1) then l.map (·.1) else l.map (·.1) ++ [name] := by
  induction l with
  | nil => rfl
  | cons e rest ih =>
    by_cases same : e.1 = name
    · simp [setEntry, same]
    · have later : name ∈ (e :: rest).map (·.1) ↔ name ∈ rest.map (·.1) := by
        rw [List.map_cons, List.mem_cons, or_iff_right fun eq => same eq.symm]
      rw [setEntry, if_neg same, List.map_cons, ih]
      by_cases listed : name ∈ rest.map (·.1)
      · rw [if_pos listed, if_pos (later.2 listed), List.map_cons]
      · rw [if_neg listed, if_neg fun member => listed (later.1 member), List.map_cons,
          List.cons_append]

/-- Collected entries have the names in the order in which they first come. -/
theorem names_collect (entries : List (String × α)) :
    (collect entries).map (·.1) = (entries.map (·.1)).eraseDups := by
  -- A further entry adds its name to those before it if it is not among them.
  induction entries using List.reverseRecOn with
  | nil => rfl
  | append_singleton before e ih =>
    have added : collect (before ++ [e]) = setEntry e.1 e.2 (collect before) :=
      List.foldl_append
    have known : e.1 ∈ (before.map (·.1)).eraseDups ↔ e.1 ∈ before.map (·.1) := by
      rw [← ih, mem_names_collect]
    rw [added, names_setEntry, ih, List.map_append, List.eraseDups_append]
    by_cases listed : e.1 ∈ before.map (·.1)
    · rw [if_pos (known.2 listed)]
      simp [List.removeAll, listed]
    · rw [if_neg (fun member => listed (known.1 member))]
      simp [List.removeAll, listed, List.eraseDups_cons]

/-- The value that entries give last for a name. -/
def lastOf (entries : List (String × α)) (name : String) : Option α := entries.reverse.lookup name

theorem lastOf_cons (e : String × α) (rest : List (String × α)) (k : String) :
    lastOf (e :: rest) k = (lastOf rest k).or (if k = e.1 then some e.2 else none) := by
  rw [lastOf, List.reverse_cons, List.lookup_append, lookup_cons_ite]
  rfl

/-- A name that no entry has is given no value. -/
theorem lastOf_eq_none {entries : List (String × α)} {name : String}
    (absent : ∀ e ∈ entries, e.1 ≠ name) : lastOf entries name = none := by
  rw [lastOf, List.lookup_eq_none_iff]
  intro e member
  rw [bne_iff_ne]
  exact (absent e (List.mem_reverse.1 member)).symm

/-- The last value of a name stands in an entry behind which no other has that name. -/
theorem lastOf_eq_some_iff {entries : List (String × α)} {name : String} {a : α} :
    lastOf entries name = some a ↔
      ∃ before after, entries = before ++ (name, a) :: after ∧ ∀ e ∈ after, e.1 ≠ name := by
  rw [lastOf, List.lookup_eq_some_iff]
  constructor
  · rintro ⟨after, before, split, later⟩
    refine ⟨before.reverse, after.reverse, ?_, ?_⟩
    · rw [← List.reverse_reverse entries, split]
      simp
    · intro e member
      exact (bne_iff_ne.1 (later e (List.mem_reverse.1 member))).symm
  · rintro ⟨before, after, rfl, later⟩
    refine ⟨after.reverse, before.reverse, by simp, ?_⟩
    intro e member
    exact bne_iff_ne.2 (later e (List.mem_reverse.1 member)).symm

theorem mem_of_lastOf {entries : List (String × α)} {name : String} {a : α}
    (found : lastOf entries name = some a) : (name, a) ∈ entries :=
  List.mem_reverse.1 (mem_of_lookup found)

/-- Each name that stands among some entries has a last value. -/
theorem exists_lastOf {entries : List (String × α)} {name : String}
    (named : name ∈ entries.map (·.1)) : ∃ a, lastOf entries name = some a := by
  induction entries with
  | nil => cases named
  | cons e rest ih =>
    rw [lastOf_cons]
    rcases List.mem_cons.1 named with rfl | later
    · cases lastOf rest e.1 with
      | none => exact ⟨e.2, if_pos rfl⟩
      | some a => exact ⟨a, rfl⟩
    · obtain ⟨a, found⟩ := ih later
      exact ⟨a, by rw [found, Option.some_or]⟩

theorem lookup_setEntries (entries : List (String × α)) (k : String) :
    ∀ start : List (String × α),
      (setEntries start entries).lookup k = (lastOf entries k).or (start.lookup k) := by
  induction entries with
  | nil => exact fun start => rfl
  | cons e rest ih =>
    intro start
    have unfolded : setEntries start (e :: rest) = setEntries (setEntry e.1 e.2 start) rest := rfl
    rw [unfolded, ih, lookup_setEntry, lastOf_cons, Option.or_assoc]
    split
    · rfl
    · rfl

/-- Under each name the collected entries have its last value. -/
theorem lookup_collect (entries : List (String × α)) (k : String) :
    (collect entries).lookup k = lastOf entries k := by
  rw [collect, lookup_setEntries, List.lookup_nil, Option.or_none]

/-- The first entry stays first, and its name comes once, with its last value. -/
theorem collect_cons (e : String × α) (rest : List (String × α)) :
    ∃ others, collect (e :: rest) = (e.1, (lastOf rest e.1).getD e.2) :: others ∧
      e.1 ∉ others.map (·.1) := by
  have names := names_collect (e :: rest)
  have once := nodup_names_collect (e :: rest)
  have found := lookup_collect (e :: rest) e.1
  rw [List.map_cons, List.eraseDups_cons] at names
  rw [lastOf_cons, if_pos rfl] at found
  cases collected : collect (e :: rest) with
  | nil =>
    rw [collected] at names
    cases names
  | cons first others =>
    obtain ⟨name, value⟩ := first
    rw [collected, List.map_cons, List.cons.injEq] at names
    obtain ⟨rfl, -⟩ := names
    rw [collected, List.map_cons, List.nodup_cons] at once
    rw [collected, lookup_cons_ite, if_pos rfl] at found
    refine ⟨others, ?_, once.1⟩
    cases last : lastOf rest e.1 with
    | none =>
      rw [last] at found
      cases found
      rfl
    | some value' =>
      rw [last] at found
      cases found
      rfl

/-- Among entries with distinct names each is found. -/
theorem lookup_of_mem {l : List (String × α)} (distinct : (l.map (·.1)).Nodup) {e : String × α}
    (listed : e ∈ l) : l.lookup e.1 = some e.2 := by
  induction l with
  | nil => cases listed
  | cons e' rest ih =>
    rw [List.map_cons, List.nodup_cons] at distinct
    rw [lookup_cons_ite]
    rcases List.mem_cons.1 listed with rfl | later
    · exact if_pos rfl
    · have other : e.1 ≠ e'.1 := fun same => distinct.1 (same ▸ List.mem_map_of_mem later)
      rw [if_neg other, ih distinct.2 later]

theorem lookup_map {β : Type} (f : α → β) (l : List (String × α)) (k : String) :
    (l.map fun e => (e.1, f e.2)).lookup k = (l.lookup k).map f := by
  induction l with
  | nil => rfl
  | cons e rest ih =>
    rw [List.map_cons, lookup_cons_ite, lookup_cons_ite, ih]
    split
    · rfl
    · rfl

theorem lastOf_map {β : Type} (f : α → β) (l : List (String × α)) (k : String) :
    lastOf (l.map fun e => (e.1, f e.2)) k = (lastOf l k).map f := by
  rw [lastOf, ← List.map_reverse, lookup_map, lastOf]

/-- Among entries with distinct names the last of a name is the one that is found. -/
theorem lastOf_of_nodup {l : List (String × α)} (distinct : (l.map (·.1)).Nodup) (k : String) :
    lastOf l k = l.lookup k :=
  (lookup_eq_of_perm l.reverse_perm.symm (countP_names_le_one distinct k)).symm

/-! ## Maps of entries -/

namespace NameMap

variable {l : List (String × α)}

/-- The names of a map are distinct. -/
theorem nodup_keys (m : NameMap α) : m.keys.Nodup := by
  rw [keys, List.nodup_iff_pairwise_ne, List.pairwise_map]
  refine m.ordered.imp ?_
  intro a b less same
  rw [same] at less
  exact String.lt_irrefl b.1 less

theorem get?_insertEach (l : List (String × α)) (k : String) :
    ∀ m : NameMap α,
      (l.foldl (fun m e => m.insert e.1 e.2) m).get? k = (lastOf l k).or (m.get? k) := by
  induction l with
  | nil => exact fun m => rfl
  | cons e rest ih =>
    intro m
    rw [List.foldl_cons, ih, get?_insert, lastOf_cons, Option.or_assoc]
    split
    · rfl
    · rfl

/-- Under each name the map of some entries has their last value. -/
theorem get?_ofList (l : List (String × α)) (k : String) : (ofList l).get? k = lastOf l k := by
  rw [ofList, get?_insertEach, get?_empty, Option.or_none]

/-- The map of some entries has no others. -/
theorem mem_of_mem_ofList {e : String × α} (listed : e ∈ (ofList l).entries) : e ∈ l := by
  have found : lastOf l e.1 = some e.2 := get?_ofList l e.1 ▸ get?_eq_some_iff.2 listed
  exact mem_of_lastOf found

/-- The map of entries in name order has them as they are. -/
theorem entries_ofList (ordered : l.Pairwise fun a b => a.1 < b.1) : (ofList l).entries = l := by
  have same : ofList l = ⟨l, ordered⟩ := by
    refine ext_get? fun k => ?_
    rw [get?_ofList, lastOf_of_nodup (nodup_keys ⟨l, ordered⟩)]
    rfl
  rw [same]

/-- What is done with each value of a map can be done before the map is made. -/
theorem entries_ofList_map {β : Type} (f : α → β) (l : List (String × α)) :
    (ofList (l.map fun e => (e.1, f e.2))).entries =
      (ofList l).entries.map fun e => (e.1, f e.2) := by
  have ordered : ((ofList l).entries.map fun e => (e.1, f e.2)).Pairwise fun a b => a.1 < b.1 :=
    List.pairwise_map.2 (ofList l).ordered
  have same : ofList (l.map fun e => (e.1, f e.2)) =
      ⟨(ofList l).entries.map fun e => (e.1, f e.2), ordered⟩ := by
    refine ext_get? fun k => ?_
    have inner : (ofList l).entries.lookup k = lastOf l k := get?_ofList l k
    rw [get?_ofList, lastOf_map, get?, lookup_map, inner]
  rw [same]

end NameMap

end WireBody
