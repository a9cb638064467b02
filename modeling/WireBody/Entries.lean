import WireBody.NameMap

/-!
# Entries in order of first appearance

Structure members, the fields of a request and the attributes of an element stand in the order in
which their names first came, and a name that comes again replaces the value where it stands.

Main statements: `lookup_setEntry` says what is found after an entry was set, and
`nodup_names_collect` that collected entries have each name once.
-/

set_option autoImplicit false

namespace WireBody

/-- Set the value of a name: in place where the name is there already, else at the end. -/
def setEntry {α : Type} (name : String) (a : α) : List (String × α) → List (String × α)
  | [] => [(name, a)]
  | (n, b) :: rest => if n = name then (n, a) :: rest else (n, b) :: setEntry name a rest

/-- Set the entries of a list one after the other. -/
def setEntries {α : Type} (start entries : List (String × α)) : List (String × α) :=
  entries.foldl (fun l e => setEntry e.1 e.2 l) start

/-- The entries of a list, each name once: where it first stands, with its last value. -/
def collect {α : Type} (entries : List (String × α)) : List (String × α) :=
  setEntries [] entries

theorem lookup_setEntry {α : Type} (name : String) (a : α) (k : String) :
    ∀ l : List (String × α),
      (setEntry name a l).lookup k = if k = name then some a else l.lookup k
  | [] => by simp [setEntry, lookup_cons_ite]
  | (n, b) :: rest => by
    simp only [setEntry]
    split
    · rename_i eq
      subst eq
      rw [lookup_cons_ite, lookup_cons_ite]
      split <;> rfl
    · rename_i ne
      rw [lookup_cons_ite, lookup_cons_ite, lookup_setEntry name a k rest]
      by_cases h : k = n
      · subst h
        rw [if_pos rfl, if_pos rfl, if_neg ne]
      · rw [if_neg h, if_neg h]

theorem mem_names_setEntry {α : Type} {name : String} {a : α} {k : String} :
    ∀ {l : List (String × α)},
      k ∈ (setEntry name a l).map (·.1) ↔ k = name ∨ k ∈ l.map (·.1)
  | [] => by simp [setEntry]
  | (n, b) :: rest => by
    simp only [setEntry]
    split
    · rename_i eq
      subst eq
      simp
    · rw [List.map_cons, List.mem_cons, mem_names_setEntry, List.map_cons, List.mem_cons]
      exact or_left_comm

theorem nodup_names_setEntry {α : Type} (name : String) (a : α) :
    ∀ {l : List (String × α)}, (l.map (·.1)).Nodup → ((setEntry name a l).map (·.1)).Nodup
  | [], _ => by simp [setEntry]
  | (n, b) :: rest, h => by
    rw [List.map_cons, List.nodup_cons] at h
    simp only [setEntry]
    split
    · exact List.nodup_cons.2 h
    · rename_i ne
      refine List.nodup_cons.2 ⟨fun mem => ?_, nodup_names_setEntry name a h.2⟩
      rcases mem_names_setEntry.1 mem with eq | mem
      · exact ne eq
      · exact h.1 mem

theorem nodup_names_setEntries {α : Type} : ∀ (entries : List (String × α))
    {start : List (String × α)}, (start.map (·.1)).Nodup →
      ((setEntries start entries).map (·.1)).Nodup
  | [], _, h => h
  | e :: rest, _, h => nodup_names_setEntries rest (nodup_names_setEntry e.1 e.2 h)

/-- Collected entries have each name once. -/
theorem nodup_names_collect {α : Type} (entries : List (String × α)) :
    ((collect entries).map (·.1)).Nodup :=
  nodup_names_setEntries entries .nil

end WireBody
