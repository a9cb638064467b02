import WireBody.Json.Printer
import WireBody.Proofs.Json.ByName
import WireBody.Proofs.Json.Kept

/-!
# Reading what was printed

The indented text of a document is spelled by the grammar of texts, and with room for all that it
nests the reader gets the document back from it.  Two documents with one text are therefore the
same.  This is said of documents that hold strings and no other scalars.

Main definitions: `Json.Textual`, `Json.Fits`.

Main statements: `spells_prettyAt`, `parse_pretty`, `pretty_injective_of_textual`.
-/

set_option autoImplicit false

namespace WireBody.Json

/-- The document holds no scalars but strings. -/
inductive Textual : Json → Prop
  | string (s : String) : Textual (.string s)
  | array {items : List Json} : (∀ j ∈ items, Textual j) → Textual (.array items)
  | object {entries : List (String × Json)} :
      (∀ e ∈ entries, Textual e.2) → Textual (.object entries)

/-- Besides, it nests arrays and objects no deeper than there is room. -/
inductive Fits : Nat → Json → Prop
  | string {room : Nat} (s : String) : Fits room (.string s)
  | array {room : Nat} {items : List Json} : (∀ j ∈ items, Fits room j) →
      Fits (room + 1) (.array items)
  | object {room : Nat} {entries : List (String × Json)} : (∀ e ∈ entries, Fits room e.2) →
      Fits (room + 1) (.object entries)

/-- There is room for a document in its size: an array or object takes one from the room, and its
parts are smaller by more than that. -/
theorem Textual.fits {j : Json} (textual : j.Textual) :
    ∀ {room : Nat}, sizeOf j ≤ room → Fits room j := by
  induction textual with
  | string t => exact fun _ => .string t
  | @array items _ ih =>
    intro room enough
    rw [Json.array.sizeOf_spec] at enough
    obtain ⟨room, rfl⟩ : ∃ n, room = n + 1 := ⟨room - 1, by omega⟩
    refine .array fun j member => ih j member ?_
    have below := List.sizeOf_lt_of_mem member
    omega
  | @object entries _ ih =>
    intro room enough
    rw [Json.object.sizeOf_spec] at enough
    obtain ⟨room, rfl⟩ : ∃ n, room = n + 1 := ⟨room - 1, by omega⟩
    refine .object ?_
    rintro ⟨name, j⟩ member
    have below := List.sizeOf_lt_of_mem member
    rw [Prod.mk.sizeOf_spec] at below
    have enough : sizeOf j ≤ room := by omega
    exact ih (name, j) member enough

/-! ## Strings -/

theorem hexDigit?_digitChar : ∀ d < 16, hexDigit? (Nat.digitChar d) = some d := by
  decide

/-- A control character is read back from its escape. -/
theorem readEscape_control {c : Char} (control : c < ' ') (s : List Char) :
    readEscape true ('u' :: '0' :: '0' :: Nat.digitChar (c.toNat / 16) ::
      Nat.digitChar (c.toNat % 16) :: s) = .ok (c, s) := by
  have small : c.toNat < 32 := control
  have zero : hexDigit? '0' = some 0 := by decide
  have high := hexDigit?_digitChar (c.toNat / 16) (by omega)
  have low := hexDigit?_digitChar (c.toNat % 16) (by omega)
  have unit : readUnit ('0' :: '0' :: Nat.digitChar (c.toNat / 16) ::
      Nat.digitChar (c.toNat % 16) :: s) = .ok (c.toNat, s) := by
    have value : ((0 * 16 + 0) * 16 + c.toNat / 16) * 16 + c.toNat % 16 = c.toNat := by omega
    simp only [readUnit, zero, high, low, value]
  have noLeading : isLeading c.toNat = false := by
    rw [isLeading, Bool.and_eq_false_iff, decide_eq_false_iff_not]
    exact .inl (by omega)
  have noTrailing : isTrailing c.toNat = false := by
    rw [isTrailing, Bool.and_eq_false_iff, decide_eq_false_iff_not]
    exact .inl (by omega)
  simp only [readEscape, readNumericEscape, unit, noLeading, noTrailing, Bool.and_false,
    Bool.false_eq_true, ↓reduceIte, Char.ofNat_toNat]

/-- A character is read back from how it stands in a string. -/
theorem readText_quoteChar (c : Char) (before s : List Char) :
    readText true before (quoteChar c ++ s) = readText true (c :: before) s := by
  unfold quoteChar
  split
  case h_8 noQuote noEscape _ _ _ _ _ =>
    split
    · rename_i control
      exact readText_escape (readEscape_control control s)
    · rename_i plain
      rw [List.singleton_append, readText]
      · rw [if_neg plain]
      · exact noQuote
      · exact noEscape
  all_goals exact readText_escape rfl

theorem readText_quoteChars (cs before r : List Char) :
    readText true before (cs.flatMap quoteChar ++ '"' :: r) =
      .ok (String.ofList (before.reverse ++ cs), r) := by
  induction cs generalizing before with
  | nil => rw [List.flatMap_nil, List.nil_append, readText, List.append_nil]
  | cons c cs ih =>
    rw [List.flatMap_cons, List.append_assoc, readText_quoteChar, ih, List.reverse_cons,
      List.append_assoc, List.singleton_append]

/-- A string is read back from its quotes. -/
theorem readText_quote (t : String) (r : List Char) :
    ∃ text, (quote t).toList ++ r = '"' :: text ∧ readText true [] text = .ok (t, r) := by
  refine ⟨t.toList.flatMap quoteChar ++ '"' :: r, ?_, ?_⟩
  · rw [quote, String.toList_ofList, List.append_assoc, List.append_assoc, List.singleton_append,
      List.singleton_append]
  · rw [readText_quoteChars, List.reverse_nil, List.nil_append, String.ofList_toList]

/-! ## Blanks -/

theorem skipBlank_newLine (level : Nat) (s : List Char) :
    skipBlank ((newLine level).toList ++ s) = skipBlank s := by
  have blank : ∀ c ∈ (newLine level).toList, isBlank c = true := by
    intro c member
    rw [newLine, String.toList_ofList, List.mem_cons, List.mem_replicate] at member
    rcases member with rfl | ⟨-, rfl⟩
    · rfl
    · rfl
  exact List.dropWhile_append_of_pos blank

theorem skipBlank_cons {c : Char} (token : isBlank c = false) (s : List Char) :
    skipBlank (c :: s) = c :: s :=
  List.dropWhile_cons_of_neg (by rw [token]; exact Bool.false_ne_true)

/-- Blanks before a document do not matter. -/
theorem Spells.of_skipBlank {room : Nat} {s s' r : List Char} {j : Json}
    (spelled : Spells room s j r) (same : skipBlank s' = skipBlank s) : Spells room s' j r := by
  cases spelled with
  | scalar noArray noObject read =>
    exact .scalar (same ▸ noArray) (same ▸ noObject) (same ▸ read)
  | emptyArray opened closed => exact .emptyArray (same ▸ opened) closed
  | array opened more items => exact .array (same ▸ opened) more items
  | emptyObject opened closed => exact .emptyObject (same ▸ opened) closed
  | object opened more entries => exact .object (same ▸ opened) more entries

/-- No document begins with a closing bracket. -/
theorem Spells.not_closed {room : Nat} {s r rest : List Char} {j : Json}
    (spelled : Spells room s j r) : skipBlank s ≠ ']' :: rest := by
  intro closed
  cases spelled with
  | scalar _ _ read =>
    rw [closed] at read
    cases read
  | emptyArray opened | array opened | emptyObject opened | object opened =>
    cases closed.symm.trans opened

/-! ## Documents -/

theorem prettyAt_string (level : Nat) (t : String) : (string t).prettyAt level = quote t := by
  simp [prettyAt, scalarText]

theorem prettyAt_array (level : Nat) (j : Json) (rest : List Json) :
    (array (j :: rest)).prettyAt level =
      "[" ++ prettyItems (level + 1) (j :: rest) ++ newLine level ++ "]" := by
  simp [prettyAt]

theorem prettyAt_object (level : Nat) (e : String × Json) (rest : List (String × Json)) :
    (object (e :: rest)).prettyAt level =
      "\x7b" ++ prettyEntries (level + 1) (e :: rest) ++ newLine level ++ "\x7d" := by
  simp [prettyAt]

variable {level room : Nat}

/-- The items of an array are spelled by their lines, if each is spelled by its text. -/
theorem spellsItems_prettyItems (outer : Nat) :
    ∀ {items : List Json}, items ≠ [] →
      (∀ j ∈ items, ∀ r, Spells room ((j.prettyAt level).toList ++ r) j r) →
      ∀ r, SpellsItems room
        ((prettyItems level items).toList ++ ((newLine outer).toList ++ ("]".toList ++ r))) items r
  | [j], _, each, r => by
    rw [prettyItems, String.toList_append, List.append_assoc]
    have spelled := each j List.mem_cons_self ((newLine outer).toList ++ ("]".toList ++ r))
    refine .last (spelled.of_skipBlank (skipBlank_newLine level _)) ?_
    rw [skipBlank_newLine]
    exact skipBlank_cons rfl r
  | j :: k :: rest, _, each, r => by
    obtain ⟨own, others⟩ := List.forall_mem_cons.1 each
    have later := spellsItems_prettyItems outer (List.cons_ne_nil k rest) others r
    rw [prettyItems, String.toList_append, String.toList_append, String.toList_append,
      List.append_assoc, List.append_assoc, List.append_assoc]
    exact .more ((own _).of_skipBlank (skipBlank_newLine level _)) (skipBlank_cons rfl _) later

/-- The entries of an object are spelled by their lines, if each value is spelled by its text. -/
theorem spellsEntries_prettyEntries (outer : Nat) :
    ∀ {entries : List (String × Json)}, entries ≠ [] →
      (∀ e ∈ entries, ∀ r, Spells room ((e.2.prettyAt level).toList ++ r) e.2 r) →
      ∀ r, SpellsEntries room
        ((prettyEntries level entries).toList ++ ((newLine outer).toList ++ ("\x7d".toList ++ r)))
        entries r
  | [(name, j)], _, each, r => by
    have spelled := each (name, j) List.mem_cons_self
      ((newLine outer).toList ++ ("\x7d".toList ++ r))
    obtain ⟨text, opened, read⟩ := readText_quote name
      (": ".toList ++ ((j.prettyAt level).toList ++
        ((newLine outer).toList ++ ("\x7d".toList ++ r))))
    rw [prettyEntries, String.toList_append, String.toList_append, String.toList_append,
      List.append_assoc, List.append_assoc, List.append_assoc, opened]
    refine .last ?_ read (skipBlank_cons rfl _) (spelled.of_skipBlank rfl) ?_
    · rw [skipBlank_newLine, skipBlank_cons rfl]
    · rw [skipBlank_newLine]
      exact skipBlank_cons rfl r
  | (name, j) :: e :: rest, _, each, r => by
    obtain ⟨own, others⟩ := List.forall_mem_cons.1 each
    have later := spellsEntries_prettyEntries outer (List.cons_ne_nil e rest) others r
    obtain ⟨text, opened, read⟩ := readText_quote name
      (": ".toList ++ ((j.prettyAt level).toList ++ (",".toList ++
        ((prettyEntries level (e :: rest)).toList ++
          ((newLine outer).toList ++ ("\x7d".toList ++ r))))))
    rw [prettyEntries, String.toList_append, String.toList_append, String.toList_append,
      String.toList_append, String.toList_append, List.append_assoc, List.append_assoc,
      List.append_assoc, List.append_assoc, List.append_assoc, opened]
    refine .more ?_ read (skipBlank_cons rfl _) ((own _).of_skipBlank rfl) (skipBlank_cons rfl _)
      later
    rw [skipBlank_newLine, skipBlank_cons rfl]

/-- A document is spelled by its indented text, where there is room for all that it nests. -/
theorem spells_prettyAt {j : Json} (fits : Fits room j) :
    ∀ (level : Nat) (r : List Char), Spells room ((j.prettyAt level).toList ++ r) j r := by
  induction fits with
  | string t =>
    intro level r
    obtain ⟨text, opened, read⟩ := readText_quote t r
    have scalar : readScalar true (skipBlank ('"' :: text)) = .ok (.string t, r) := by
      rw [skipBlank_cons rfl, readScalar, read]
      rfl
    rw [prettyAt_string, opened]
    apply Spells.scalar _ _ scalar
    · intro rest opened
      rw [skipBlank_cons rfl] at opened
      cases opened
    · intro rest opened
      rw [skipBlank_cons rfl] at opened
      cases opened
  | @array room items _ ih =>
    intro level r
    cases items with
    | nil =>
      rw [prettyAt]
      exact .emptyArray (skipBlank_cons rfl _) (skipBlank_cons rfl _)
    | cons k rest =>
      have spelled := spellsItems_prettyItems level (List.cons_ne_nil k rest)
        (fun j member => ih j member (level + 1)) r
      rw [prettyAt_array, String.toList_append, String.toList_append, String.toList_append,
        List.append_assoc, List.append_assoc, List.append_assoc]
      refine .array (skipBlank_cons rfl _) (fun r => ?_) spelled
      cases spelled with
      | last first _ => exact first.not_closed
      | more first _ _ => exact first.not_closed
  | @object room entries _ ih =>
    intro level r
    cases entries with
    | nil =>
      rw [prettyAt]
      exact .emptyObject (skipBlank_cons rfl _) (skipBlank_cons rfl _)
    | cons e rest =>
      have spelled := spellsEntries_prettyEntries level (List.cons_ne_nil e rest)
        (fun e' member => ih e' member (level + 1)) r
      rw [prettyAt_object, String.toList_append, String.toList_append, String.toList_append,
        List.append_assoc, List.append_assoc, List.append_assoc]
      refine .object (skipBlank_cons rfl _) (fun r closed => ?_) spelled
      cases spelled with
      | last opened | more opened => cases closed.symm.trans opened

/-! ## One document a text -/

/-- With enough room the reader gets the document that a text spells. -/
theorem readPlain_of_spells {room room' : Nat} {s r : List Char} {j : Json}
    (spelled : Spells room s j r) (enough : room ≤ room') :
    bare (readPlain .whole room' s) = .ok (j, r) := by
  obtain ⟨o, held, comes⟩ := follows_of_spells spelled .whole .whole enough
  cases eq_of_held_whole held rfl
  exact comes

/-- A document of strings is read from its indented text, unless it nests too deep for texts. -/
theorem parse_pretty {j : Json} (fits : Fits maxNesting j) : parse j.pretty = .ok j := by
  have spelled := spells_prettyAt fits 0 []
  rw [List.append_nil] at spelled
  have reads := readPlain_of_spells spelled (Nat.le_refl _)
  unfold parse read
  rw [readValue_whole]
  cases plain : readPlain .whole maxNesting j.pretty.toList with
  | error f =>
    rw [show j.prettyAt 0 = j.pretty from rfl, plain] at reads
    cases reads
  | ok value =>
    obtain ⟨j', rest, shorter⟩ := value
    rw [show j.prettyAt 0 = j.pretty from rfl, plain, bare_ok] at reads
    cases reads
    rfl

/-- Documents of strings that are printed alike are the same. -/
theorem pretty_injective_of_textual {j k : Json} (left : j.Textual) (right : k.Textual)
    (same : j.pretty = k.pretty) : j = k := by
  have first := readPlain_of_spells (spells_prettyAt (left.fits (Nat.le_refl _)) 0 [])
    (Nat.le_max_left (sizeOf j) (sizeOf k))
  have second := readPlain_of_spells (spells_prettyAt (right.fits (Nat.le_refl _)) 0 [])
    (Nat.le_max_right (sizeOf j) (sizeOf k))
  rw [show j.prettyAt 0 = k.prettyAt 0 from same] at first
  cases first.symm.trans second
  rfl

end WireBody.Json
