import WireBody.Json.Reader
import WireBody.Proofs.Outcome

/-!
# Texts of documents

The reader of a whole text and a grammar for what it reads.  Every step of the reader says of the
rest of a text that it is shorter; `bare` leaves this out, and the rounds of the reader are equations
between bare steps, one for each function and for every layout.

`Spells` is the grammar.  A document that is read from a text is spelled by it, so that a proof about
the text is an induction on the grammar, in which layouts do not occur.

Main statement: `spells_of_readPlain`.
-/

set_option autoImplicit false

namespace WireBody.Json

/-! ## Rounds of the reader -/

/-- What a step gives, without what is known of the rest. -/
def bare {α : Type} {s : List Char} (x : Except Fault (α × Rest s)) :
    Except Fault (α × List Char) :=
  x.map fun p => (p.1, p.2.val)

theorem bare_error {α : Type} {s : List Char} (f : Fault) :
    bare (.error f : Except Fault (α × Rest s)) = .error f := rfl

theorem bare_ok {α : Type} {s : List Char} (a : α) (r : Rest s) :
    bare (.ok (a, r) : Except Fault (α × Rest s)) = .ok (a, r.val) := rfl


theorem bare_readPlain (l : Layout) (room : Nat) (s : List Char) :
    bare (readPlain l room s) =
      match skipBlank s with
      | '[' :: rest =>
        if l.allowsArray then
          match l.inside room with
          | none => .error .malformed
          | some room =>
            match skipBlank rest with
            | ']' :: rest => .ok (.array [], rest)
            | _ => (bare (readItems l room 0 rest)).map fun p => (.array p.1, p.2)
        else .error .mismatched
      | '{' :: rest =>
        if l.allowsObject then
          match l.inside room with
          | none => .error .malformed
          | some room =>
            match skipBlank rest with
            | '}' :: rest => .ok (.object [], rest)
            | _ => (bare (readEntries l room [] rest)).map fun p => (.object p.1, p.2)
        else .error .mismatched
      | _ =>
        match readScalar l.strict (skipBlank s) with
        | .error f => .error f
        | .ok (j, rest) => if l.allowsScalar then .ok (j, rest) else .error .mismatched := by
  unfold readPlain
  split
  · rename_i rest opened
    simp only [opened]
    split
    · cases l.inside room with
      | none => rfl
      | some room =>
        simp only
        split
        · rename_i rest' close
          simp only [close, bare_ok]
        · split
          · rename_i failed
            simp only [failed, bare_error, Except.map]
          · rename_i read
            simp only [read, bare_ok, Except.map]
    · rfl
  · rename_i rest opened
    simp only [opened]
    split
    · cases l.inside room with
      | none => rfl
      | some room =>
        simp only
        split
        · rename_i rest' close
          simp only [close, bare_ok]
        · split
          · rename_i failed
            simp only [failed, bare_error, Except.map]
          · rename_i read
            simp only [read, bare_ok, Except.map]
    · rfl
  · split
    · rename_i failed
      simp only [failed, bare_error]
    · rename_i j rest scalar
      simp only [scalar]
      split <;> rfl

theorem bare_readItems (l : Layout) (room i : Nat) (s : List Char) :
    bare (readItems l room i s) =
      match l.item? i with
      | none => .error .malformed
      | some item =>
        match bare (readValue item room s) with
        | .error f => .error f
        | .ok (j, rest) =>
          match skipBlank rest with
          | ',' :: rest => (bare (readItems l room (i + 1) rest)).map fun p => (j :: p.1, p.2)
          | ']' :: rest => .ok ([j], rest)
          | [] => .error .truncated
          | _ => .error .malformed := by
  conv_lhs => unfold readItems
  split
  · rename_i none
    simp only [none, bare_error]
  · rename_i item part
    simp only [part]
    split
    · rename_i failed
      simp only [failed, bare_error]
    · rename_i j rest shorter read
      simp only [read, bare_ok]
      split
      · rename_i rest' next
        simp only [next]
        cases readItems l room (i + 1) rest' <;> rfl
      · rename_i rest' next
        simp only [next, bare_ok]
      · rename_i next
        simp only [next, bare_error]
      · rw [bare_error]
        split <;> simp_all

theorem bare_readEntries (l : Layout) (room : Nat) (before : List String) (s : List Char) :
    bare (readEntries l room before s) =
      match skipBlank s with
      | '"' :: rest =>
        match readText l.strict [] rest with
        | .error f => .error f
        | .ok (name, rest) =>
          if before.contains name then .error .mismatched
          else
            match skipBlank rest with
            | ':' :: rest =>
              match bare (readValue (l.entry name) room rest) with
              | .error f => .error f
              | .ok (j, rest) =>
                match skipBlank rest with
                | ',' :: rest =>
                  (bare (readEntries l room (if l.onlyOnce name then name :: before else before)
                    rest)).map fun p => ((name, j) :: p.1, p.2)
                | '}' :: rest => .ok ([(name, j)], rest)
                | [] => .error .truncated
                | _ => .error .malformed
            | [] => .error .truncated
            | _ => .error .malformed
      | [] => .error .truncated
      | _ => .error .malformed := by
  conv_lhs => unfold readEntries
  split
  · rename_i rest quote
    simp only [quote]
    split
    · rename_i failed
      simp only [failed, bare_error]
    · rename_i name rest₁ text
      simp only [text]
      split
      · rfl
      · split
        · rename_i rest₂ colon
          simp only [colon]
          split
          · rename_i failed
            simp only [failed, bare_error]
          · rename_i j rest₃ shorter read
            simp only [read, bare_ok]
            split
            · rename_i rest₄ next
              simp only [next]
              cases readEntries l room (if l.onlyOnce name then name :: before else before) rest₄ <;>
                rfl
            · rename_i rest₄ next
              simp only [next, bare_ok]
            · rename_i next
              simp only [next, bare_error]
            · rw [bare_error]
              split <;> simp_all
        · rename_i colon
          simp only [colon, bare_error]
        · rw [bare_error]
          split <;> simp_all
  · rename_i quote
    simp only [quote, bare_error]
  · rw [bare_error]
    split <;> simp_all

theorem bare_readValue_tested (value : Layout) (accepts : Json → Bool) (room : Nat) (s : List Char) :
    bare (readValue (.tested value accepts) room s) =
      match bare (readValue value room s) with
      | .error f => .error f
      | .ok (j, rest) => if accepts j then .ok (j, rest) else .error .mismatched := by
  rw [readValue]
  cases readValue value room s with
  | error f => rfl
  | ok p =>
    obtain ⟨j, rest⟩ := p
    simp only [bare_ok]
    split <;> rfl

theorem bare_readValue_orNull (other : Layout) (room : Nat) (s : List Char) :
    bare (readValue (.orNull other) room s) =
      match skipBlank s with
      | 'n' :: _ => bare (readPlain .scalar room s)
      | _ => bare (readValue other room s) := by
  rw [readValue]
  by_cases isNull : ∃ rest, skipBlank s = 'n' :: rest
  · obtain ⟨rest, opened⟩ := isNull
    simp only [opened]
  · have noNull : ∀ rest, skipBlank s ≠ 'n' :: rest := fun rest opened => isNull ⟨rest, opened⟩
    simp only

theorem readValue_whole (room : Nat) (s : List Char) :
    readValue .whole room s = readPlain .whole room s := by
  rw [readValue]

/-! ## The grammar -/

/-- A null, truth value, number or string. -/
def IsScalar : Json → Prop
  | .array _ | .object _ => False
  | _ => True

mutual

/-- The text `s` begins with the document `j`, within so much room, and goes on with `r`. -/
inductive Spells : Nat → List Char → Json → List Char → Prop
  | scalar {room : Nat} {s r : List Char} {j : Json} :
      (∀ rest, skipBlank s ≠ '[' :: rest) → (∀ rest, skipBlank s ≠ '{' :: rest) →
      readScalar true (skipBlank s) = .ok (j, r) → Spells room s j r
  | emptyArray {room : Nat} {s rest r : List Char} :
      skipBlank s = '[' :: rest → skipBlank rest = ']' :: r → Spells (room + 1) s (.array []) r
  | array {room : Nat} {s rest r : List Char} {items : List Json} :
      skipBlank s = '[' :: rest → (∀ r, skipBlank rest ≠ ']' :: r) →
      SpellsItems room rest items r → Spells (room + 1) s (.array items) r
  | emptyObject {room : Nat} {s rest r : List Char} :
      skipBlank s = '{' :: rest → skipBlank rest = '}' :: r → Spells (room + 1) s (.object []) r
  | object {room : Nat} {s rest r : List Char} {entries : List (String × Json)} :
      skipBlank s = '{' :: rest → (∀ r, skipBlank rest ≠ '}' :: r) →
      SpellsEntries room rest entries r → Spells (room + 1) s (.object entries) r

/-- The items of an array. -/
inductive SpellsItems : Nat → List Char → List Json → List Char → Prop
  | last {room : Nat} {s rest r : List Char} {j : Json} :
      Spells room s j rest → skipBlank rest = ']' :: r → SpellsItems room s [j] r
  | more {room : Nat} {s rest rest' r : List Char} {j : Json} {items : List Json} :
      Spells room s j rest → skipBlank rest = ',' :: rest' → SpellsItems room rest' items r →
      SpellsItems room s (j :: items) r

/-- The entries of an object. -/
inductive SpellsEntries : Nat → List Char → List (String × Json) → List Char → Prop
  | last {room : Nat} {s text named value rest r : List Char} {name : String} {j : Json} :
      skipBlank s = '"' :: text → readText true [] text = .ok (name, named) →
      skipBlank named = ':' :: value → Spells room value j rest → skipBlank rest = '}' :: r →
      SpellsEntries room s [(name, j)] r
  | more {room : Nat} {s text named value rest rest' r : List Char} {name : String} {j : Json}
      {entries : List (String × Json)} :
      skipBlank s = '"' :: text → readText true [] text = .ok (name, named) →
      skipBlank named = ':' :: value → Spells room value j rest → skipBlank rest = ',' :: rest' →
      SpellsEntries room rest' entries r → SpellsEntries room s ((name, j) :: entries) r

end

/-! ## Scalars -/

/-- A scalar is null exactly where its word begins. -/
theorem null_iff_of_readScalar {s r : List Char} {j : Json} (read : readScalar true s = .ok (j, r)) :
    IsScalar j ∧ (j = .null ↔ ∃ rest, s = 'n' :: rest) := by
  unfold readScalar at read
  split at read
  · cases read
  · obtain ⟨⟨t, r'⟩, text, same⟩ := map_eq_ok_iff.1 read
    cases same
    simp [IsScalar]
  · obtain ⟨r', word, same⟩ := map_eq_ok_iff.1 read
    cases same
    simp [IsScalar]
  · obtain ⟨r', word, same⟩ := map_eq_ok_iff.1 read
    cases same
    simp [IsScalar]
  · obtain ⟨r', word, same⟩ := map_eq_ok_iff.1 read
    cases same
    simp [IsScalar]
  · rename_i c rest noQuote noNull noTrue noFalse
    have other : ¬ ∃ t, c :: rest = 'n' :: t := by
      rintro ⟨t, same⟩
      exact noNull (List.cons.inj same).1
    split at read
    · unfold readNumber at read
      split at read
      · cases read
      · simp only [↓reduceIte] at read
        split at read
        · cases read
          exact ⟨trivial, iff_of_false Json.noConfusion other⟩
        · cases read
    · cases read

theorem null_iff_of_spells {room : Nat} {s r : List Char} {j : Json} (spelled : Spells room s j r) :
    j = .null ↔ ∃ rest, skipBlank s = 'n' :: rest := by
  have bracket {c : Char} {rest : List Char} (opened : skipBlank s = c :: rest) (other : c ≠ 'n') :
      ¬ ∃ rest, skipBlank s = 'n' :: rest := by
    rintro ⟨rest', opened'⟩
    exact other (List.cons.inj (opened.symm.trans opened')).1
  cases spelled with
  | scalar _ _ read => exact (null_iff_of_readScalar read).2
  | emptyArray opened | array opened | emptyObject opened | object opened =>
    exact iff_of_false Json.noConfusion (bracket opened (by decide))

/-! ## Soundness -/

theorem length_lt_of_bare {α : Type} {s : List Char} {x : Except Fault (α × Rest s)} {a : α}
    {r : List Char} (h : bare x = .ok (a, r)) : r.length < s.length := by
  obtain ⟨⟨b, rest⟩, rfl, same⟩ := map_eq_ok_iff.1 h
  cases same
  exact rest.2

mutual

theorem spells_of_readPlain {room : Nat} {s r : List Char} {j : Json}
    (read : bare (readPlain .whole room s) = .ok (j, r)) : Spells room s j r := by
  rw [bare_readPlain] at read
  split at read
  · rename_i rest opened
    have shorter := lt_of_skipBlank opened
    cases room with
    | zero => cases read
    | succ room =>
      simp only [Layout.allowsArray, Layout.inside, ↓reduceIte] at read
      split at read
      · rename_i close
        cases read
        exact .emptyArray opened close
      · rename_i noClose
        obtain ⟨⟨items, r'⟩, itemsRead, same⟩ := map_eq_ok_iff.1 read
        cases same
        exact .array opened noClose (spells_of_readItems itemsRead)
  · rename_i rest opened
    have shorter := lt_of_skipBlank opened
    cases room with
    | zero => cases read
    | succ room =>
      simp only [Layout.allowsObject, Layout.inside, ↓reduceIte] at read
      split at read
      · rename_i close
        cases read
        exact .emptyObject opened close
      · rename_i noClose
        obtain ⟨⟨entries, r'⟩, entriesRead, same⟩ := map_eq_ok_iff.1 read
        cases same
        exact .object opened noClose (spells_of_readEntries entriesRead)
  · rename_i noArray noObject
    split at read
    · cases read
    · rename_i scalar
      cases read
      exact .scalar noArray noObject scalar
termination_by 2 * s.length
decreasing_by all_goals omega

theorem spells_of_readItems {room i : Nat} {s r : List Char} {items : List Json}
    (read : bare (readItems .whole room i s) = .ok (items, r)) : SpellsItems room s items r := by
  rw [bare_readItems] at read
  simp only [Layout.item?] at read
  split at read
  · cases read
  · rename_i j rest valueRead
    rw [readValue_whole] at valueRead
    have value := spells_of_readPlain valueRead
    have shorter := length_lt_of_bare valueRead
    split at read
    · rename_i rest' next
      have shorter' := lt_of_skipBlank next
      obtain ⟨⟨items', r'⟩, itemsRead, same⟩ := map_eq_ok_iff.1 read
      cases same
      exact .more value next (spells_of_readItems itemsRead)
    · rename_i next
      cases read
      exact .last value next
    · cases read
    · cases read
termination_by 2 * s.length + 1
decreasing_by all_goals omega

theorem spells_of_readEntries {room : Nat} {s r : List Char} {entries : List (String × Json)}
    (read : bare (readEntries .whole room [] s) = .ok (entries, r)) :
    SpellsEntries room s entries r := by
  rw [bare_readEntries] at read
  split at read
  · rename_i text quote
    split at read
    · cases read
    · rename_i name named text
      split at read
      · cases read
      · split at read
        · rename_i value colon
          split at read
          · cases read
          · rename_i j rest valueRead
            simp only [Layout.entry] at valueRead
            rw [readValue_whole] at valueRead
            have shorter₁ := lt_of_skipBlank quote
            have shorter₂ := readText_length _ _ text
            have shorter₃ := lt_of_skipBlank colon
            have shorter := length_lt_of_bare valueRead
            have value := spells_of_readPlain valueRead
            split at read
            · rename_i rest' next
              have shorter₄ := lt_of_skipBlank next
              obtain ⟨⟨entries', r'⟩, entriesRead, same⟩ := map_eq_ok_iff.1 read
              cases same
              exact .more quote text colon value next (spells_of_readEntries entriesRead)
            · rename_i next
              cases read
              exact .last quote text colon value next
            · cases read
            · cases read
        · cases read
        · cases read
  · cases read
  · cases read
termination_by 2 * s.length + 1
decreasing_by all_goals omega

end

end WireBody.Json
