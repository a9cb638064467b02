import Mathlib.Logic.Relation
import WireBody.Proofs.Service.Texts

/-!
# Names that are no fields

A description may say more about a record than its fields: what a service documents under names of
its own.  Wherever such an entry is put, and whatever its value is, the description is read as before.
For a shape this goes by its type, which may follow the entry: `members` is one of the fields of a
structure but stands idly in a string.

Main statement: `load_of_inserts`.
-/

set_option autoImplicit false

namespace WireBody.Service.Description

/-! ## Further entries -/

/-- A further entry in an object that is read as a record, of a name that is no field of it. -/
inductive Inserts : Part → Json → Json → Prop
  | key {p : Part} {names : List String} {name : String} {before after : List (String × Json)}
      {v : Json} :
      p.fields? = some names → name ∉ names →
      Inserts p (.object (before ++ after)) (.object (before ++ (name, v) :: after))

section

variable {names : List String} {name : String}

/-- A record has the same fields with an entry that is no field. -/
theorem record_eq_of_insert {before after : List (String × Json)} {v : Json} (unknown : name ∉ names) :
    Record.ofJson names (.object (before ++ after)) =
      Record.ofJson names (.object (before ++ (name, v) :: after)) := by
  have repeats : ∀ n ∈ names, Record.repeated (before ++ after) n =
      Record.repeated (before ++ (name, v) :: after) n := by
    intro n known
    have other : name ≠ n := fun same => unknown (same ▸ known)
    simp only [Record.repeated, List.countP_append, List.countP_cons, other, decide_false,
      Bool.false_eq_true, ↓reduceIte, Nat.add_zero]
  have found : ∀ n ∈ names, ((before ++ after).lookup n).map (n, ·) =
      ((before ++ (name, v) :: after).lookup n).map (n, ·) := by
    intro n known
    have other : n ≠ name := fun same => unknown (same ▸ known)
    rw [lookup_inserted before after v other]
  have again : names.any (Record.repeated (before ++ after)) =
      names.any (Record.repeated (before ++ (name, v) :: after)) := by
    rw [Bool.eq_iff_iff, List.any_eq_true, List.any_eq_true]
    exact exists_congr fun n => and_congr_right fun known => by rw [repeats n known]
  rw [Record.ofJson, Record.ofJson, again, List.filterMap_congr found]

/-- A record with a further entry is read as before; for a shape the entry is no second tag. -/
theorem Inserts.alike {p : Part} {j j' : Json} (inserts : Inserts p j j') : Alike p j j' := by
  cases inserts with
  | @key names name before after v fields unknown =>
    refine alike_of_object fields ?_ fun names' among =>
      record_eq_of_insert fun known => unknown (among known)
    rintro type rfl
    have noTag : name ≠ "type" := by
      rintro rfl
      cases type <;> cases fields <;> exact unknown List.mem_cons_self
    simp only [tag?, List.filter_append, List.filter_cons, noTag, decide_false,
      Bool.false_eq_true, ↓reduceIte]

end

/-! ## Descriptions with further entries -/

theorem ofJson_of_inserts {j j' : Json}
    (inserted : Relation.ReflTransGen (Within Inserts .description) j j') :
    Graph.ofJson j = Graph.ofJson j' := by
  induction inserted with
  | refl => rfl
  | tail _ step ih => exact ih.trans (alike_of_within (fun _ _ _ made => made.alike) step)

/-- Further entries change nothing about what is loaded, from a document or from its text. -/
theorem load_of_inserts {j j' : Json}
    (inserted : Relation.ReflTransGen (Within Inserts .description) j j') :
    Graph.load j' = Graph.load j ∧
      ∀ text text', Json.parse text = .ok j → Json.parse text' = .ok j' →
        outcome (Graph.ofText text') = outcome (Graph.ofText text) := by
  have same : Graph.load j' = Graph.load j := by
    unfold Graph.load
    rw [ofJson_of_inserts inserted]
  refine ⟨same, fun text text' document document' => ?_⟩
  rw [ofText_of_parse document', same, ofText_of_parse document]

/-! ## A word

A string, and the same string with a comment and, ahead of its type, with members. -/

/-- The text of the description. -/
def wordDescription : String :=
  "\x7b\"shapes\":\x7b\"Word\":\x7b\"type\":\"string\"\x7d\x7d\x7d"

/-- The document that it is. -/
def wordDocument : Json :=
  .object [("shapes", .object [("Word", .object [("type", .string "string")])])]

/-- The text of the description that says more. -/
def wordyDescription : String :=
  "\x7b\"comment\":null,\"shapes\":\x7b\"Word\":" ++
  "\x7b\"members\":[true],\"type\":\"string\"\x7d\x7d\x7d"

/-- The document that it is. -/
def wordyDocument : Json :=
  .object [
    ("comment", .null),
    ("shapes", .object [
      ("Word", .object [("members", .array [.bool true]), ("type", .string "string")])])]

theorem parse_wordDescription : Json.parse wordDescription = .ok wordDocument := by
  with_unfolding_all rfl

theorem parse_wordyDescription : Json.parse wordyDescription = .ok wordyDocument := by
  with_unfolding_all rfl

theorem inserts_wordyDocument :
    Relation.ReflTransGen (Within Inserts .description) wordDocument wordyDocument := by
  have members : Within Inserts (.shape (some (.scalar .string)))
      (.object [("type", .string "string")])
      (.object [("members", .array [.bool true]), ("type", .string "string")]) :=
    .here (@Inserts.key _ _ _ [] _ _ rfl (by decide))
  have shapes : Within Inserts .shapes _ _ :=
    @Within.entry _ _ (.shape (some (.scalar .string))) "Word" [] [] _ _ rfl members
  have first : Within Inserts .description wordDocument _ :=
    @Within.field _ _ _ "shapes" [] [] _ _ rfl (by decide) shapes
  have second : Within Inserts .description _ wordyDocument :=
    .here (@Inserts.key _ _ "comment" [] _ _ rfl (by decide))
  exact .tail (.single first) second

theorem load_of_inserts_word :
    Graph.load wordyDocument = Graph.load wordDocument ∧
      outcome (Graph.ofText wordyDescription) = outcome (Graph.ofText wordDescription) := by
  obtain ⟨document, texts⟩ := load_of_inserts inserts_wordyDocument
  exact ⟨document, texts _ _ parse_wordDescription parse_wordyDescription⟩

end WireBody.Service.Description
