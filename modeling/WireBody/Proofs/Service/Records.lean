import WireBody.Json.Record
import WireBody.Proofs.Entries
import WireBody.Proofs.Outcome

/-!
# What is read from a record

A field of a record stands under its name in an object and at its place in an array.  It is said
here what reading a field gives, in terms of the document alone, and what a table read from an
object holds: its names in the order in which they first come, each with its last value.

Main statements: `Record.lookup_of_ofJson` and `names_of_asTableOf`, `lastOf_of_asTableOf`.
-/

set_option autoImplicit false

namespace WireBody

/-! ## Fields -/

/-- The value of a field of a record with these fields. -/
def Json.field (names : List String) (name : String) : Json → Option Json
  | .object entries => entries.lookup name
  | .array items => (names.zip items).lookup name
  | _ => none

namespace Record

variable {α : Type} {names : List String} {name : String} {j : Json} {r : Record}

theorem lookup_filterMap (entries : List (String × Json)) (known : name ∈ names) :
    (names.filterMap fun n => (entries.lookup n).map (n, ·)).lookup name = entries.lookup name := by
  induction names with
  | nil => cases known
  | cons n rest ih =>
    by_cases same : name = n
    · subst same
      cases found : entries.lookup name with
      | some v => simp [found]
      | none =>
        -- Without a value here there is none further on.
        have none : ∀ later : List String,
            (later.filterMap fun n => (entries.lookup n).map (n, ·)).lookup name = none := by
          intro later
          rw [List.lookup_eq_none_iff]
          intro e listed
          obtain ⟨n, -, given⟩ := List.mem_filterMap.1 listed
          obtain ⟨v, there, rfl⟩ := Option.map_eq_some_iff.1 given
          rw [bne_iff_ne]
          rintro rfl
          rw [found] at there
          cases there
        exact none _
    · have later := ih ((List.mem_cons.1 known).resolve_left same)
      cases found : entries.lookup n with
      | none => simpa [found] using later
      | some v =>
        simp only [List.filterMap_cons, found, Option.map_some]
        rw [lookup_cons_ite, if_neg same, later]

/-- A record has the fields of its document. -/
theorem lookup_of_ofJson (read : Record.ofJson names j = .ok r) (known : name ∈ names) :
    r.given.lookup name = j.field names name := by
  unfold Record.ofJson at read
  split at read
  · rename_i entries
    split at read
    · cases read
    · cases read
      exact lookup_filterMap entries known
  · split at read
    · cases read
    · cases read
      rfl
  · cases read

theorem field_of_needed {d : Json → Except Fault α} {a : α}
    (read : Record.ofJson names j = .ok r) (known : name ∈ names)
    (given : r.needed name d = .ok a) :
    ∃ v, j.field names name = some v ∧ d v = .ok a := by
  unfold needed at given
  rw [lookup_of_ofJson read known] at given
  split at given
  · rename_i v found
    exact ⟨v, found, given⟩
  · cases given

theorem field_of_defaulted {d : Json → Except Fault α} {default a : α}
    (read : Record.ofJson names j = .ok r) (known : name ∈ names)
    (given : r.defaulted name default d = .ok a) :
    j.field names name = none ∧ a = default ∨ ∃ v, j.field names name = some v ∧ d v = .ok a := by
  unfold defaulted at given
  rw [lookup_of_ofJson read known] at given
  split at given
  · rename_i v found
    exact .inr ⟨v, found, given⟩
  · rename_i absent
    cases given
    exact .inl ⟨absent, rfl⟩

theorem cases_of_orNull {d : Json → Except Fault α} {a : Option α} (read : orNull d j = .ok a) :
    j = .null ∧ a = none ∨ ∃ b, d j = .ok b ∧ a = some b := by
  unfold orNull at read
  split at read
  · cases read
    exact .inl ⟨rfl, rfl⟩
  · obtain ⟨b, taken, rfl⟩ := map_eq_ok_iff.1 read
    exact .inr ⟨b, taken, rfl⟩

theorem field_of_optional {d : Json → Except Fault α} {a : Option α}
    (read : Record.ofJson names j = .ok r) (known : name ∈ names)
    (given : r.optional name d = .ok a) :
    (j.field names name = none ∨ j.field names name = some .null) ∧ a = none ∨
      ∃ v b, j.field names name = some v ∧ d v = .ok b ∧ a = some b := by
  unfold optional at given
  rw [lookup_of_ofJson read known] at given
  split at given
  · rename_i v found
    rcases cases_of_orNull given with ⟨rfl, rfl⟩ | ⟨b, taken, rfl⟩
    · exact .inl ⟨.inr found, rfl⟩
    · exact .inr ⟨v, b, found, taken, rfl⟩
  · rename_i absent
    split at given
    · cases given
    · cases given
      exact .inl ⟨.inl absent, rfl⟩

theorem map_defaulted {β : Type} (r : Record) (name : String) (default : α)
    (d : Json → Except Fault α) (f : α → β) :
    (r.defaulted name default d).map f = r.defaulted name (f default) fun v => (d v).map f := by
  unfold Record.defaulted
  split <;> rfl

/-- What may be null is read by its reader, unless it is null. -/
theorem orNull_congr {d : Json → Except Fault α} {j' : Json} (read : d j = d j')
    (null : j = .null ↔ j' = .null) : orNull d j = orNull d j' := by
  by_cases absent : j = .null
  · rw [absent, null.1 absent]
  · have given' : j' ≠ .null := fun absent' => absent (null.2 absent')
    have unfolded {k : Json} (given : k ≠ .null) : orNull d k = (d k).map some := by
      unfold orNull
      split
      · contradiction
      · rfl
    rw [unfolded absent, unfolded given', read]

end Record

/-! ## Texts -/

theorem string_of_asString {j : Json} {s : String} (read : Json.asString j = .ok s) :
    j = .string s := by
  unfold Json.asString at read
  split at read
  · cases read
    rfl
  · cases read

theorem strings_of_readAll {items : List Json} {texts : List String}
    (each : List.Forall₂ (fun j s => Json.asString j = .ok s) items texts) :
    items = texts.map .string := by
  induction each with
  | nil => rfl
  | cons first _ ih => rw [string_of_asString first, ih, List.map_cons]

theorem strings_of_asArrayOf {j : Json} {texts : List String}
    (read : Json.asArrayOf Json.asString j = .ok texts) : j = .array (texts.map .string) := by
  unfold Json.asArrayOf at read
  split at read
  · rw [strings_of_readAll (mapM_eq_ok_iff.1 read)]
  · cases read

/-! ## Tables -/

section

variable {α : Type} {d : String → Json → Except Fault α} {entries : List (String × Json)}
  {all table : List (String × α)}

theorem names_of_readAll
    (read : List.Forall₂ (fun e b => (d e.1 e.2).map (e.1, ·) = .ok b) entries all) :
    all.map (·.1) = entries.map (·.1) := by
  induction read with
  | nil => rfl
  | cons first _ ih =>
    obtain ⟨a, -, rfl⟩ := map_eq_ok_iff.1 first
    rw [List.map_cons, List.map_cons, ih]

/-- The last value of a name is what is read from its last value in the document. -/
theorem lastOf_of_readAll
    (read : List.Forall₂ (fun e b => (d e.1 e.2).map (e.1, ·) = .ok b) entries all) (k : String) :
    lastOf entries k = none ∧ lastOf all k = none ∨
      ∃ v a, lastOf entries k = some v ∧ lastOf all k = some a ∧ d k v = .ok a := by
  induction read with
  | nil => exact .inl ⟨rfl, rfl⟩
  | @cons e b rest rest' first _ ih =>
    obtain ⟨a, taken, rfl⟩ := map_eq_ok_iff.1 first
    rw [lastOf_cons, lastOf_cons]
    rcases ih with ⟨none, none'⟩ | ⟨v, a', later, later', taken'⟩
    · rw [none, none', Option.none_or, Option.none_or]
      by_cases same : k = e.1
      · rw [if_pos same, if_pos same]
        exact .inr ⟨e.2, a, rfl, rfl, same ▸ taken⟩
      · rw [if_neg same, if_neg same]
        exact .inl ⟨rfl, rfl⟩
    · rw [later, later']
      exact .inr ⟨v, a', rfl, rfl, taken'⟩

theorem entries_of_asTableOf {j : Json} (read : Json.asTableOf d j = .ok table) :
    ∃ entries all, j = .object entries ∧ table = collect all ∧
      List.Forall₂ (fun e b => (d e.1 e.2).map (e.1, ·) = .ok b) entries all := by
  unfold Json.asTableOf at read
  split at read
  · rename_i entries
    obtain ⟨all, readAll, rfl⟩ := map_eq_ok_iff.1 read
    exact ⟨entries, all, rfl, rfl, mapM_eq_ok_iff.1 readAll⟩
  · cases read

/-- A table has the names of its object in the order in which they first come. -/
theorem names_of_asTableOf (read : Json.asTableOf d (.object entries) = .ok table) :
    table.map (·.1) = (entries.map (·.1)).eraseDups := by
  obtain ⟨_, all, same, rfl, each⟩ := entries_of_asTableOf read
  cases same
  rw [names_collect, names_of_readAll each]

/-- Under each name a table has what is read from its last value. -/
theorem lastOf_of_asTableOf (read : Json.asTableOf d (.object entries) = .ok table)
    {e : String × α} (listed : e ∈ table) :
    ∃ v, lastOf entries e.1 = some v ∧ d e.1 v = .ok e.2 := by
  obtain ⟨_, all, same, rfl, each⟩ := entries_of_asTableOf read
  cases same
  have found : lastOf all e.1 = some e.2 := by
    rw [← lookup_collect]
    exact lookup_of_mem (nodup_names_collect all) listed
  rcases lastOf_of_readAll each e.1 with ⟨-, none⟩ | ⟨v, a, last, last', taken⟩
  · rw [none] at found
    cases found
  · rw [last'] at found
    cases found
    exact ⟨v, last, taken⟩

/-- Tables are the same if they are read from objects that differ where the same is read. -/
theorem asTableOf_replace {key : String} {before after : List (String × Json)} {v v' : Json}
    (same : d key v = d key v') :
    Json.asTableOf d (.object (before ++ (key, v) :: after)) =
      Json.asTableOf d (.object (before ++ (key, v') :: after)) := by
  have each : (d key v).map (key, ·) = (d key v').map (key, ·) := by rw [same]
  simp only [Json.asTableOf]
  exact congrArg (Except.map collect)
    (mapM_replace (f := fun e : String × Json => (d e.1 e.2).map (e.1, ·)) each)

end

end WireBody
