import Mathlib.Data.List.Perm.Basic
import Mathlib.Logic.Relation
import WireBody.Proofs.Service.Texts

/-!
# The order of a description

The fields of a record may stand in any order, and so may the shapes and the operations of a
description, as long as none of them comes twice: what is loaded is the same graph, or the same defect
of it.  The defect that is reported is the first one by name and not the first one in the document.
The members of a structure are left where they are, since their order is that of the body.

Main statement: `load_of_reordered`.
-/

set_option autoImplicit false

namespace WireBody.Service.Description

/-! ## Records in another order -/

/-- Another order of the entries in an object that is read as a record, or as the table of the
operations or shapes. -/
inductive Permutes : Part → Json → Json → Prop
  | fields {p : Part} {names : List String} {entries entries' : List (String × Json)} :
      p.fields? = some names → entries.Perm entries' →
      Permutes p (.object entries) (.object entries')
  | operations {entries entries' : List (String × Json)} :
      entries.Perm entries' → Permutes .operations (.object entries) (.object entries')
  | shapes {entries entries' : List (String × Json)} :
      entries.Perm entries' → Permutes .shapes (.object entries) (.object entries')

theorem Permutes.perm {p : Part} {j j' : Json} (permutes : Permutes p j j') :
    ∃ entries entries', j = .object entries ∧ j' = .object entries' ∧ entries.Perm entries' := by
  cases permutes with
  | fields _ moved | operations moved | shapes moved => exact ⟨_, _, rfl, rfl, moved⟩

section

variable {p : Part} {names : List String} {entries entries' : List (String × Json)}

/-- A field that stands once is found in any order, and one that stands twice is found out. -/
theorem record_eq_of_perm (moved : entries.Perm entries') :
    Record.ofJson names (.object entries) = Record.ofJson names (.object entries') := by
  have repeats : Record.repeated entries = Record.repeated entries' := by
    funext n
    rw [Record.repeated, Record.repeated, moved.countP_eq]
  rw [Record.ofJson, Record.ofJson, ← repeats]
  split
  · rfl
  · rename_i once
    have found : ∀ n ∈ names,
        (entries.lookup n).map (n, ·) = (entries'.lookup n).map (n, ·) := by
      intro n known
      have single : Record.repeated entries n ≠ true := fun again =>
        once (List.any_eq_true.2 ⟨n, known, again⟩)
      rw [lookup_eq_of_perm moved (Nat.not_lt.1 fun more => single (decide_eq_true more))]
    rw [List.filterMap_congr found]

theorem tag?_perm (moved : entries.Perm entries') :
    tag? (.object entries) = tag? (.object entries') := by
  by_cases once : (entries.countP fun e => e.1 = "type") ≤ 1
  · simp only [tag?, filter_eq_of_perm moved once]
  · have noTag {l : List (String × Json)} (more : 1 < l.countP fun e => e.1 = "type") :
        tag? (.object l) = none := by
      rw [List.countP_eq_length_filter] at more
      unfold tag?
      simp only
      split
      · rename_i single
        rw [single] at more
        exact absurd more (Nat.lt_irrefl 1)
      · rfl
    rw [noTag (Nat.not_le.1 once), noTag (moved.countP_eq _ ▸ Nat.not_le.1 once)]

theorem alike_of_fields (fields : p.fields? = some names) (moved : entries.Perm entries') :
    Alike p (.object entries) (.object entries') :=
  alike_of_object fields (fun _ _ => tag?_perm moved) fun _ _ => record_eq_of_perm moved

end

/-- A part that has no table of shapes or operations in it. -/
def Part.Inner (p : Part) : Prop := p ≠ .description ∧ p ≠ .operations ∧ p ≠ .shapes

theorem Part.Inner.field {p : Part} (inner : p.Inner) (name : String) : (p.field name).Inner := by
  unfold Part.field
  split
  · exact absurd rfl inner.1
  · exact absurd rfl inner.1
  · exact absurd rfl inner.1
  all_goals simp [Part.Inner]

theorem Part.Inner.each {p : Part} (inner : p.Inner) {q : Part} {v : Json} (each : p.each v = some q) :
    q.Inner := by
  cases p <;> cases each <;> simp_all [Part.Inner]

/-- Below the tables the order never matters. -/
theorem alike_of_inner {p : Part} {j j' : Json} (step : Within Permutes p j j') (inner : p.Inner) :
    Alike p j j' := by
  induction step with
  | here made =>
    cases made with
    | fields fields moved => exact alike_of_fields fields moved
    | operations moved => exact absurd rfl inner.2.1
    | shapes moved => exact absurd rfl inner.2.2
  | field fields known _ ih => exact Alike.field fields known (ih (inner.field _))
  | item fields there _ ih => exact Alike.item fields there (ih (inner.field _))
  | entry each _ ih => exact Alike.entry each (ih (inner.each each))

/-! ## Tables in another order -/

theorem storedBy_perm {α : Type} {name : α → String} {table table' : List (String × α)}
    (moved : table.Perm table') (apart : (table.map fun e => name e.2).Nodup) :
    storedBy name table = storedBy name table' := by
  have apart : ((table.map (·.2)).map name).Nodup := by rwa [List.map_map]
  refine (moved.map (·.2)).foldl_eq' (fun a first b second m => ?_) _
  by_cases same : name a = name b
  · rw [List.inj_on_of_nodup_map apart first second same]
  · exact NameMap.insert_comm same

section

variable {α : Type} {d : String → Json → Except Fault α} {entries entries' : List (String × Json)}
  {table : List (String × α)}

theorem asTableOf_perm (moved : entries.Perm entries') (apart : (entries.map (·.1)).Nodup)
    (read : Json.asTableOf d (.object entries) = .ok table) :
    ∃ table', Json.asTableOf d (.object entries') = .ok table' ∧ table.Perm table' := by
  obtain ⟨_, all, same, rfl, each⟩ := entries_of_asTableOf read
  cases same
  obtain ⟨all', each', moved'⟩ := List.perm_comp_forall₂ moved.symm each
  have names := names_of_readAll each
  refine ⟨collect all', congrArg (Except.map collect) (mapM_eq_ok_iff.2 each'), ?_⟩
  rw [collect_of_nodup (names ▸ apart),
    collect_of_nodup ((moved'.map _).nodup_iff.2 (names ▸ apart))]
  exact moved'.symm

end

/-- No key of an object is repeated. -/
def KeysOnce (j : Json) : Prop := ∀ entries, j = .object entries → (entries.map (·.1)).Nodup

/-- A table without repeated keys, whose values have distinct names. -/
structure Apart {α : Type} (d : String → Json → Except Fault α) (name : α → String) (j : Json) :
    Prop where
  keys : KeysOnce j
  names : ∀ table, Json.asTableOf d j = .ok table → (table.map fun e => name e.2).Nodup

section

variable {α : Type} {d : String → Json → Except Fault α} {name : α → String}

/-- The order of such a table does not matter to what is stored of it. -/
theorem Apart.perm {entries entries' : List (String × Json)} (moved : entries.Perm entries')
    (apart : Apart d name (.object entries)) {table : List (String × α)}
    (read : Json.asTableOf d (.object entries) = .ok table) :
    (Json.asTableOf d (.object entries)).map (storedBy name) =
        (Json.asTableOf d (.object entries')).map (storedBy name) ∧
      Apart d name (.object entries') := by
  obtain ⟨table', read', moved'⟩ := asTableOf_perm moved (apart.keys _ rfl) read
  refine ⟨?_, ?_, ?_⟩
  · rw [read, read']
    exact congrArg Except.ok (storedBy_perm moved' (apart.names table read))
  · rintro _ ⟨⟩
    exact (moved.map _).nodup_iff.1 (apart.keys _ rfl)
  · intro table'' again
    cases read'.symm.trans again
    exact (moved'.map _).nodup_iff.1 (apart.names table read)

theorem Apart.replace {key : String} {before after : List (String × Json)} {v v' : Json}
    (apart : Apart d name (.object (before ++ (key, v) :: after))) (same : d key v = d key v') :
    Apart d name (.object (before ++ (key, v') :: after)) := by
  refine ⟨?_, ?_⟩
  · rintro _ ⟨⟩
    simpa using apart.keys _ rfl
  · intro table read
    exact apart.names table ((asTableOf_replace same).trans read)

end

/-- Unchanged, or changed at one place. -/
def Changed (p : Part) (j j' : Json) : Prop := j = j' ∨ Within Permutes p j j'

/-- A change at one place of a table, or of its order, does not matter to what is stored of it. -/
theorem stored_of_changed {p : Part} {α : Type} {d : String → Json → Except Fault α}
    {name : α → String} (noRecord : p.fields? = none)
    (each : ∀ q v, p.each v = some q →
      q.Inner ∧ ∀ v', Alike q v v' → ∀ key, d key v = d key v')
    {j j' : Json} (changed : Changed p j j') (apart : Apart d name j) {table : List (String × α)}
    (read : Json.asTableOf d j = .ok table) :
    (Json.asTableOf d j).map (storedBy name) = (Json.asTableOf d j').map (storedBy name) ∧
      Apart d name j' := by
  rcases changed with rfl | step
  · exact ⟨rfl, apart⟩
  cases step with
  | here made =>
    obtain ⟨entries, entries', rfl, rfl, moved⟩ := made.perm
    exact apart.perm moved read
  | field fields => cases noRecord.symm.trans fields
  | item fields => cases noRecord.symm.trans fields
  | entry part step =>
    obtain ⟨inner, same⟩ := each _ _ part
    have alike := same _ (alike_of_inner step inner)
    exact ⟨congrArg _ (asTableOf_replace (alike _)), apart.replace (alike _)⟩

/-- Shapes have the names of their keys. -/
theorem apart_shapes {j : Json} (keys : KeysOnce j) : Apart shape Shape.name j := by
  refine ⟨keys, fun table read => ?_⟩
  obtain ⟨entries, all, rfl, collected, -⟩ := entries_of_asTableOf read
  have named : (table.map fun e => e.2.name) = table.map (·.1) := by
    refine List.map_congr_left fun e listed => ?_
    obtain ⟨v, -, taken⟩ := lastOf_of_asTableOf read listed
    exact (shapeOf_of_shape taken).1
  rw [named, collected]
  exact nodup_names_collect all

theorem shapes_of_changed {j j' : Json} (changed : Changed .shapes j j')
    (apart : Apart shape Shape.name j) {table : List (String × Shape)}
    (read : Json.asTableOf shape j = .ok table) :
    Alike .shapes j j' ∧ Apart shape Shape.name j' := by
  refine stored_of_changed rfl (fun q v part => ?_) changed apart read
  cases part
  exact ⟨⟨nofun, nofun, nofun⟩, fun v' alike key => alike rfl key⟩

theorem operations_of_changed {j j' : Json} (changed : Changed .operations j j')
    (apart : Apart operation Operation.name j) {table : List (String × Operation)}
    (read : Json.asTableOf operation j = .ok table) :
    Alike .operations j j' ∧ Apart operation Operation.name j' := by
  refine stored_of_changed rfl (fun q v part => ?_) changed apart read
  cases part
  exact ⟨⟨nofun, nofun, nofun⟩, fun v' alike key => alike key⟩

/-! ## Descriptions in another order -/

/-- No key of the tables of a description is repeated, and no two operations have one name. -/
structure Distinct (j : Json) : Prop where
  shapes : ∀ v, j.field topFields "shapes" = some v → KeysOnce v
  operations : ∀ v, j.field topFields "operations" = some v → Apart operation Operation.name v

theorem metadata_of_changed {v v' : Json} (changed : Changed .metadata v v') :
    Alike .metadata v v' := by
  rcases changed with rfl | step
  · exact .refl _ _
  · exact alike_of_inner step ⟨nofun, nofun, nofun⟩

theorem sameRecord_of_step {j j' : Json} (step : Within Permutes .description j j') :
    SameRecord Changed .description topFields j j' := by
  have refl (p : Part) (j : Json) : Changed p j j := .inl rfl
  cases step with
  | here made =>
    cases made with
    | fields _ moved => exact sameRecord_of_eq refl (record_eq_of_perm moved)
  | field fields _ step =>
    cases fields
    exact sameRecord_of_field refl (.inr step)
  | item fields there step =>
    cases fields
    exact sameRecord_of_item refl there (.inr step)
  | entry each => cases each

theorem tables_of_record {j : Json} {r : Record} {g : Graph}
    (record : Record.ofJson topFields j = .ok r) (read : Graph.ofJson j = .ok g) :
    (∀ v, r.given.lookup "operations" = some v → ∃ table, Json.asTableOf operation v = .ok table) ∧
      ∀ v, r.given.lookup "shapes" = some v → ∃ table, Json.asTableOf shape v = .ok table := by
  unfold Graph.ofJson at read
  rw [record, ok_bind] at read
  obtain ⟨metadata, -, read⟩ := bind_eq_ok_iff.1 read
  obtain ⟨operations, operationsRead, read⟩ := bind_eq_ok_iff.1 read
  obtain ⟨shapes, shapesRead, -⟩ := bind_eq_ok_iff.1 read
  unfold Record.defaulted at operationsRead shapesRead
  constructor
  · intro v found
    rw [found] at operationsRead
    exact ⟨operations, operationsRead⟩
  · intro v found
    rw [found] at shapesRead
    exact ⟨shapes, shapesRead⟩

/-- One change of the order is read as the same graph, and leaves the tables without repeats. -/
theorem ofJson_of_step {j j' : Json} {g : Graph} (step : Within Permutes .description j j')
    (distinct : Distinct j) (decoded : Graph.ofJson j = .ok g) :
    Graph.ofJson j' = .ok g ∧ Distinct j' := by
  cases sameRecord_of_step step with
  | neither record _ =>
    rw [Graph.ofJson, record] at decoded
    cases decoded
  | @both r r' record record' changed =>
    obtain ⟨operationsRead, shapesRead⟩ := tables_of_record record decoded
    have shapes {v v' : Json} (found : r.given.lookup "shapes" = some v)
        (values : Changed .shapes v v') : Alike .shapes v v' ∧ Apart shape Shape.name v' := by
      obtain ⟨table, read⟩ := shapesRead v found
      rw [Record.lookup_of_ofJson record (by decide)] at found
      exact shapes_of_changed values (apart_shapes (distinct.shapes v found)) read
    have operations {v v' : Json} (found : r.given.lookup "operations" = some v)
        (values : Changed .operations v v') :
        Alike .operations v v' ∧ Apart operation Operation.name v' := by
      obtain ⟨table, read⟩ := operationsRead v found
      rw [Record.lookup_of_ofJson record (by decide)] at found
      exact operations_of_changed values (distinct.operations v found) read
    have alike : AlikeRecords Alike .description topFields r r' := by
      refine ⟨changed.positional, fun name known => ?_⟩
      rcases changed.lookup known with ⟨absent, absent'⟩ | ⟨v, v', found, found', values⟩
      · rw [absent, absent']
        exact .none
      · rw [found, found']
        refine .some ?_
        simp only [topFields, List.mem_cons, List.not_mem_nil, or_false] at known
        rcases known with rfl | rfl | rfl
        · exact metadata_of_changed values
        · exact (operations found values).1
        · exact (shapes found values).1
    have before {name : String} (known : name ∈ topFields) {v' : Json}
        (found' : j'.field topFields name = some v') :
        ∃ v, r.given.lookup name = some v ∧ Changed (Part.description.field name) v v' := by
      rw [← Record.lookup_of_ofJson record' known] at found'
      rcases changed.lookup known with ⟨-, absent'⟩ | ⟨v, v'', found, found'', values⟩
      · cases absent'.symm.trans found'
      · cases found''.symm.trans found'
        exact ⟨v, found, values⟩
    refine ⟨ofJson_congr (.both record record' alike) ▸ decoded, fun v' found' => ?_,
      fun v' found' => ?_⟩
    · obtain ⟨v, found, values⟩ := before (by decide) found'
      exact (shapes found values).2.keys
    · obtain ⟨v, found, values⟩ := before (by decide) found'
      exact (operations found values).2

theorem ofJson_of_reordered {j j' : Json} {g : Graph}
    (moved : Relation.ReflTransGen (Within Permutes .description) j j')
    (distinct : Distinct j) (decoded : Graph.ofJson j = .ok g) :
    Graph.ofJson j' = .ok g := by
  have kept : Graph.ofJson j' = .ok g ∧ Distinct j' := by
    induction moved with
    | refl => exact ⟨decoded, distinct⟩
    | tail _ step ih => exact ofJson_of_step step ih.2 ih.1
  exact kept.1

/-- What is loaded does not depend on the order, neither from a document nor from its text. -/
theorem load_of_reordered {j j' : Json} {g : Graph}
    (moved : Relation.ReflTransGen (Within Permutes .description) j j')
    (distinct : Distinct j) (decoded : Graph.ofJson j = .ok g) :
    Graph.load j' = Graph.load j ∧
      ∀ text text', Json.parse text = .ok j → Json.parse text' = .ok j' →
        Graph.ofText text' = Graph.ofText text := by
  have decoded' := ofJson_of_reordered moved distinct decoded
  have same : Graph.load j' = Graph.load j := by
    unfold Graph.load
    rw [decoded', decoded]
  refine ⟨same, fun text text' document document' => ?_⟩
  rw [ofText_of_decoded document' decoded', same, ofText_of_decoded document decoded]

/-! ## A memo

Two operations and two shapes, and all of it the other way round: the tables, what is in them, and the
type of the list after its member. -/

/-- The text of the description. -/
def memoDescription : String :=
  "\x7b\"operations\":\x7b\"Put\":\x7b\"input\":\x7b\"shape\":\"Memo\"\x7d\x7d,\"Get\":\x7b\x7d\x7d," ++
  "\"shapes\":\x7b\"Memo\":\x7b\"type\":\"list\",\"member\":\x7b\"shape\":\"Word\"\x7d\x7d," ++
  "\"Word\":\x7b\"type\":\"string\"\x7d\x7d\x7d"

/-- The document that it is. -/
def memoDocument : Json :=
  .object [
    ("operations", .object [
      ("Put", .object [("input", .object [("shape", .string "Memo")])]),
      ("Get", .object [])]),
    ("shapes", .object [
      ("Memo", .object [
        ("type", .string "list"), ("member", .object [("shape", .string "Word")])]),
      ("Word", .object [("type", .string "string")])])]

/-- The text of the description that is turned round. -/
def turnedDescription : String :=
  "\x7b\"shapes\":\x7b\"Word\":\x7b\"type\":\"string\"\x7d," ++
  "\"Memo\":\x7b\"member\":\x7b\"shape\":\"Word\"\x7d,\"type\":\"list\"\x7d\x7d," ++
  "\"operations\":\x7b\"Get\":\x7b\x7d,\"Put\":\x7b\"input\":\x7b\"shape\":\"Memo\"\x7d\x7d\x7d\x7d"

/-- The document that it is. -/
def turnedDocument : Json :=
  .object [
    ("shapes", .object [
      ("Word", .object [("type", .string "string")]),
      ("Memo", .object [
        ("member", .object [("shape", .string "Word")]), ("type", .string "list")])]),
    ("operations", .object [
      ("Get", .object []),
      ("Put", .object [("input", .object [("shape", .string "Memo")])])])]

set_option maxRecDepth 2000 in
theorem parse_memoDescription : Json.parse memoDescription = .ok memoDocument := by
  with_unfolding_all rfl

set_option maxRecDepth 2000 in
theorem parse_turnedDescription : Json.parse turnedDescription = .ok turnedDocument := by
  with_unfolding_all rfl

theorem permutes_turnedDocument :
    Relation.ReflTransGen (Within Permutes .description) memoDocument turnedDocument := by
  refine .head (@Within.field _ _ _ "shapes" [_] [] _ _ rfl (by decide)
    (@Within.entry _ _ (.shape (some .list)) "Memo" [] [_] _ _ rfl
      (.here (.fields rfl (.swap _ _ []))))) ?_
  refine .head (@Within.field _ _ _ "shapes" [_] [] _ _ rfl (by decide)
    (.here (.shapes (.swap _ _ [])))) ?_
  refine .head (@Within.field _ _ _ "operations" [] [_] _ _ rfl (by decide)
    (.here (.operations (.swap _ _ [])))) ?_
  exact .single (.here (.fields rfl (.swap _ _ [])))

theorem distinct_memoDocument : Distinct memoDocument := by
  refine ⟨?_, ?_⟩
  · rintro v ⟨⟩ entries ⟨⟩
    decide
  · rintro v ⟨⟩
    refine ⟨?_, fun table read => ?_⟩
    · rintro entries ⟨⟩
      decide
    · cases (rfl : Json.asTableOf operation _ = .ok _).symm.trans read
      decide

theorem load_of_reordered_memo :
    Graph.load turnedDocument = Graph.load memoDocument ∧
      Graph.ofText turnedDescription = Graph.ofText memoDescription := by
  obtain ⟨document, texts⟩ := load_of_reordered permutes_turnedDocument distinct_memoDocument rfl
  exact ⟨document, texts _ _ parse_memoDescription parse_turnedDescription⟩

end WireBody.Service.Description
