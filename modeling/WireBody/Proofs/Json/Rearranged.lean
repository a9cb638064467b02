import Mathlib.Data.List.Forall2
import Mathlib.Data.List.Perm.Basic
import WireBody.Proofs.Entries
import WireBody.Proofs.Json.ByName

/-!
# Documents up to the order of entries

An object says the same in whatever order its entries stand.  `Json.Rearranged` relates documents
that differ in nothing else, at any depth.  Where the names of an object are distinct, each name is
then found with the same value, rearranged.

Main statement: `Json.Rearranged.sameEntries`.
-/

set_option autoImplicit false

namespace WireBody.Json

/-- The documents differ in the order of entries alone, in any of their objects. -/
inductive Rearranged : Json → Json → Prop
  | null : Rearranged .null .null
  | bool (b : Bool) : Rearranged (.bool b) (.bool b)
  | number (n : Number) : Rearranged (.number n) (.number n)
  | string (s : String) : Rearranged (.string s) (.string s)
  | array {items items' : List Json} :
      List.Forall₂ Rearranged items items' → Rearranged (.array items) (.array items')
  /-- The values under the names change on their own, and then the order of the entries. -/
  | object {entries kept entries' : List (String × Json)} :
      entries.map (·.1) = kept.map (·.1) →
      List.Forall₂ Rearranged (entries.map (·.2)) (kept.map (·.2)) →
      kept.Perm entries' → Rearranged (.object entries) (.object entries')

namespace Rearranged

theorem refl (j : Json) : j.Rearranged j := by
  induction j using induction_on_contents with
  | null => exact .null
  | bool b => exact .bool b
  | number n => exact .number n
  | string s => exact .string s
  | array items ih => exact .array (List.forall₂_same.2 ih)
  | object entries ih =>
    exact .object rfl (List.forall₂_same.2 (List.forall_mem_map.2 ih)) (.refl entries)

theorem string_left {s : String} {j : Json} (moved : (Json.string s).Rearranged j) : j = .string s := by
  cases moved
  rfl

theorem array_left {items : List Json} {j : Json} (moved : (Json.array items).Rearranged j) :
    ∃ items', j = .array items' ∧ List.Forall₂ Rearranged items items' := by
  cases moved with
  | array each => exact ⟨_, rfl, each⟩

/-- The entries of a rearranged object: the values rearranged, and then the entries moved. -/
theorem object_left {entries : List (String × Json)} {j : Json}
    (moved : (Json.object entries).Rearranged j) :
    ∃ kept entries', j = .object entries' ∧
      List.Forall₂ (fun e e' => e.1 = e'.1 ∧ e.2.Rearranged e'.2) entries kept ∧
      kept.Perm entries' := by
  have pairs : ∀ {entries kept : List (String × Json)}, entries.map (·.1) = kept.map (·.1) →
      List.Forall₂ Rearranged (entries.map (·.2)) (kept.map (·.2)) →
      List.Forall₂ (fun e e' => e.1 = e'.1 ∧ e.2.Rearranged e'.2) entries kept := by
    intro entries
    induction entries with
    | nil =>
      intro kept names _
      rw [List.map_nil, eq_comm, List.map_eq_nil_iff] at names
      exact List.forall₂_nil_left_iff.2 names
    | cons e rest ih =>
      intro kept names values
      match kept, names, values with
      | e' :: later, names, .cons value values =>
        rw [List.map_cons, List.map_cons, List.cons.injEq] at names
        exact .cons ⟨names.1, value⟩ (ih names.2 values)
  cases moved with
  | @object _ kept entries' names values order =>
    exact ⟨kept, entries', rfl, pairs names values, order⟩

/-- There is nothing to rearrange about a single entry but its value. -/
theorem single_left {name : String} {k j : Json} (moved : (Json.object [(name, k)]).Rearranged j) :
    ∃ k', j = .object [(name, k')] ∧ k.Rearranged k' := by
  obtain ⟨kept, entries', rfl, each, order⟩ := moved.object_left
  cases each with
  | @cons _ e _ _ first none =>
    cases none
    rw [← List.singleton_perm.1 order]
    obtain ⟨rfl, value⟩ := first
    exact ⟨e.2, rfl, value⟩

end Rearranged

/-- Each name is found in both objects, with a value and that value rearranged, or in neither. -/
structure SameEntries (entries entries' : List (String × Json)) : Prop where
  found : ∀ (name : String) {j : Json}, entries.lookup name = some j →
    ∃ k, entries'.lookup name = some k ∧ j.Rearranged k
  absent : ∀ name : String, entries.lookup name = none → entries'.lookup name = none

theorem sameEntries_of_forall₂ {entries kept : List (String × Json)}
    (each : List.Forall₂ (fun e e' => e.1 = e'.1 ∧ e.2.Rearranged e'.2) entries kept) :
    SameEntries entries kept := by
  induction each with
  | nil => exact ⟨nofun, fun _ absent => absent⟩
  | @cons e e' rest later first _ ih =>
    obtain ⟨own, value⟩ := first
    constructor
    · intro name j found
      rw [lookup_cons_ite] at found ⊢
      rw [← own]
      split at found
      · rename_i here
        cases found
        exact ⟨e'.2, if_pos here, value⟩
      · rename_i other
        rw [if_neg other]
        exact ih.found name found
    · intro name absent
      rw [lookup_cons_ite] at absent ⊢
      rw [← own]
      split at absent
      · cases absent
      · rename_i other
        rw [if_neg other]
        exact ih.absent name absent

/-- What a rearranged object has under each name, if its names are distinct. -/
theorem Rearranged.sameEntries {entries : List (String × Json)} {j : Json}
    (moved : (Json.object entries).Rearranged j) (names : List String)
    (named : entries.map (·.1) = names) (distinct : names.Nodup) :
    ∃ entries', j = .object entries' ∧ SameEntries entries entries' := by
  obtain ⟨kept, entries', rfl, each, order⟩ := moved.object_left
  have same : entries.map (·.1) = kept.map (·.1) := by
    rw [← List.forall₂_eq_eq_eq, List.forall₂_map_left_iff, List.forall₂_map_right_iff]
    exact each.imp fun e e' both => both.1
  have once : (kept.map (·.1)).Nodup := same ▸ named ▸ distinct
  have order (name : String) : kept.lookup name = entries'.lookup name :=
    lookup_eq_of_perm order (countP_names_le_one once name)
  obtain ⟨found, absent⟩ := sameEntries_of_forall₂ each
  refine ⟨entries', rfl, fun name j given => ?found, fun name none => ?absent⟩
  case found =>
    rw [← order name]
    exact found name given
  case absent =>
    rw [← order name]
    exact absent name none

end WireBody.Json
