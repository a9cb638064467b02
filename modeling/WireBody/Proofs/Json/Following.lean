import WireBody.Proofs.Entries
import WireBody.Proofs.Json.Grammar

/-!
# Reading along a layout

A text that holds a document may be read along a layout that asks for more.  What comes out does not
depend on the text: it is the document held against the layout, value by value, and `Held` says what
that is.  Reading ends early exactly where the document is refused, and it ends with the document as
the layout sees it otherwise.  Of a part that is passed over anything may be seen, since its numbers
and escapes are not worked out.

This is for layouts without a choice, which are those that descriptions are read along.

Main statement: `held_of_parse`.
-/

set_option autoImplicit false

namespace WireBody

/-! ## Layouts -/

namespace Layout

/-- A layout that holds an array or object against the layouts of its parts. -/
inductive Plain : Layout → Prop
  | whole : Plain .whole
  | scalar : Plain .scalar
  | entries {each : Layout} : Plain (.entries each)
  | fields {named : List (String × Layout)} : Plain (.fields named)
  | tagged {tag : String} {value : Layout} : Plain (.tagged tag value)

theorem Plain.strict {l : Layout} (plain : Plain l) : l.strict = true := by
  cases plain <;> rfl

theorem Plain.inside {l : Layout} (plain : Plain l) (room : Nat) :
    l.inside (room + 1) = some room := by
  cases plain <;> rfl

/-- A layout without a choice in it. -/
inductive Direct : Layout → Prop
  | ignored : Direct .ignored
  | whole : Direct .whole
  | scalar : Direct .scalar
  | entries {each : Layout} : Direct each → Direct (.entries each)
  | fields {named : List (String × Layout)} : (∀ e ∈ named, Direct e.2) → Direct (.fields named)
  | tagged {tag : String} {value : Layout} : Direct value → Direct (.tagged tag value)
  | orNull {other : Layout} : Direct other → Direct (.orNull other)
  | tested {value : Layout} {accepts : Json → Bool} : Direct value → Direct (.tested value accepts)

theorem Direct.item {l item : Layout} {i : Nat} (direct : Direct l) (part : l.item? i = some item) :
    Direct item := by
  unfold Layout.item? at part
  split at part
  · cases part
    exact .whole
  · rename_i named i
    obtain ⟨e, listed, rfl⟩ := Option.map_eq_some_iff.1 part
    cases direct with
    | fields each => exact each e (List.mem_of_getElem? listed)
  · cases part
    cases direct with
    | tagged value => exact value
  · cases part
    exact .whole
  · cases part
    exact .ignored

theorem Direct.entry {l : Layout} (direct : Direct l) (name : String) : Direct (l.entry name) := by
  unfold Layout.entry
  split
  · exact .whole
  · cases direct with
    | entries each => exact each
  · rename_i named
    cases found : named.lookup name with
    | none => exact .ignored
    | some each =>
      cases direct with
      | fields all => exact all _ (mem_of_lookup found)
  · split
    · cases direct with
      | tagged value => exact value
    · exact .whole
  · exact .ignored

end Layout

namespace Json

open Layout (Plain Direct)

/-! ## Lenient reading -/

/-- What is read strictly is read leniently, though a pair of escapes takes two steps. -/
theorem readEscape_lenient {s r : List Char} {c : Char} (read : readEscape true s = .ok (c, r)) :
    ∃ c' r', readEscape false s = .ok (c', r') ∧
      (r' = r ∨ ∃ more d, r' = '\\' :: more ∧ readEscape false more = .ok (d, r)) := by
  unfold readEscape at read
  split at read
  · cases read
  · rename_i digits
    unfold readNumericEscape at read
    split at read
    · cases read
    · rename_i n rest unit
      have single : readEscape false ('u' :: digits) = .ok (Char.ofNat n, rest) := by
        simp [readEscape, readNumericEscape, unit]
      refine ⟨Char.ofNat n, rest, single, ?_⟩
      split at read
      · cases read
      · split at read
        · split at read
          · rename_i more
            split at read
            · cases read
            · rename_i m rest' unit'
              split at read
              · rw [Except.ok.injEq, Prod.mk.injEq] at read
                obtain ⟨-, rfl⟩ := read
                have second : readEscape false ('u' :: more) = .ok (Char.ofNat m, rest') := by
                  simp [readEscape, readNumericEscape, unit']
                exact .inr ⟨_, _, rfl, second⟩
              · cases read
          all_goals cases read
        · rw [Except.ok.injEq, Prod.mk.injEq] at read
          exact .inl read.2
  · rename_i letter rest noUnit
    refine ⟨c, r, ?_, .inl rfl⟩
    rw [readEscape]
    · exact read
    · exact noUnit

theorem readText_escape {strict : Bool} {before rest rest' : List Char} {c : Char}
    (escape : readEscape strict rest = .ok (c, rest')) :
    readText strict before ('\\' :: rest) = readText strict (c :: before) rest' := by
  rw [readText]
  split
  · rename_i failed
    cases failed.symm.trans escape
  · rename_i read
    cases read.symm.trans escape
    rfl

theorem readText_lenient {before s r : List Char} {t : String}
    (read : readText true before s = .ok (t, r)) (before' : List Char) :
    ∃ t', readText false before' s = .ok (t', r) := by
  fun_induction readText true before s generalizing before' with
  | case1 => cases read
  | case2 before rest =>
    cases read
    exact ⟨_, by rw [readText]⟩
  | case3 => cases read
  | case4 before rest c rest' escape shorter ih =>
    obtain ⟨c', r', lenient, rfl | ⟨more, d, rfl, lenient'⟩⟩ := readEscape_lenient escape
    · rw [readText_escape lenient]
      exact ih read _
    · rw [readText_escape lenient, readText_escape lenient']
      exact ih read _
  | case5 => cases read
  | case6 before c rest noQuote noEscape plain ih =>
    obtain ⟨t', lenient⟩ := ih read (c :: before')
    refine ⟨t', ?_⟩
    rw [readText]
    · rw [if_neg plain, lenient]
    · exact noQuote
    · exact noEscape

theorem readScalar_lenient {s r : List Char} {j : Json} (read : readScalar true s = .ok (j, r)) :
    ∃ j', readScalar false s = .ok (j', r) := by
  unfold readScalar at read
  split at read
  · cases read
  · obtain ⟨⟨t, r'⟩, text, same⟩ := map_eq_ok_iff.1 read
    cases same
    obtain ⟨t', lenient⟩ := readText_lenient text []
    exact ⟨_, map_eq_ok_iff.2 ⟨(t', r), lenient, rfl⟩⟩
  · exact ⟨j, read⟩
  · exact ⟨j, read⟩
  · exact ⟨j, read⟩
  · rename_i c rest noQuote noNull noTrue noFalse
    split at read
    · rename_i number
      unfold readNumber at read
      split at read
      · cases read
      · rename_i literal
        refine ⟨.null, ?_⟩
        rw [readScalar]
        · rw [if_pos number, readNumber, literal]
          simp only [↓reduceIte] at read
          split at read
          · cases read
            rfl
          · cases read
        all_goals assumption
    · cases read

/-! ## Passing over -/

theorem readValue_ignored (room : Nat) (s : List Char) :
    readValue .ignored room s = readPlain .ignored room s := by
  rw [readValue]

mutual

theorem passes_of_spells {room : Nat} {s r : List Char} {j : Json} :
    Spells room s j r → ∀ room', ∃ j', bare (readPlain .ignored room' s) = .ok (j', r)
  | .scalar noArray noObject read, room' => by
    obtain ⟨j', lenient⟩ := readScalar_lenient read
    refine ⟨j', ?_⟩
    rw [bare_readPlain]
    split
    · exact absurd ‹_› (noArray _)
    · exact absurd ‹_› (noObject _)
    · simp only [Layout.strict, lenient, Layout.allowsScalar, ↓reduceIte]
  | .emptyArray opened closed, room' => by
    refine ⟨.array [], ?_⟩
    rw [bare_readPlain]
    simp only [opened, Layout.allowsArray, Layout.inside, closed, ↓reduceIte]
  | .array opened noClose items, room' => by
    obtain ⟨items', passed⟩ := passes_of_spellsItems items room' 0
    refine ⟨.array items', ?_⟩
    rw [bare_readPlain]
    simp only [opened, Layout.allowsArray, Layout.inside, ↓reduceIte]
    rw [passed]
    rfl
  | .emptyObject opened closed, room' => by
    refine ⟨.object [], ?_⟩
    rw [bare_readPlain]
    simp only [opened, Layout.allowsObject, Layout.inside, closed, ↓reduceIte]
  | .object opened noClose entries, room' => by
    obtain ⟨entries', passed⟩ := passes_of_spellsEntries entries room'
    refine ⟨.object entries', ?_⟩
    rw [bare_readPlain]
    simp only [opened, Layout.allowsObject, Layout.inside, ↓reduceIte]
    rw [passed]
    rfl

theorem passes_of_spellsItems {room : Nat} {s r : List Char} {items : List Json} :
    SpellsItems room s items r →
      ∀ room' i, ∃ items', bare (readItems .ignored room' i s) = .ok (items', r)
  | .last value closed, room', i => by
    obtain ⟨j', passed⟩ := passes_of_spells value room'
    refine ⟨[j'], ?_⟩
    rw [bare_readItems]
    simp only [Layout.item?, readValue_ignored, passed, closed]
  | .more value next items, room', i => by
    obtain ⟨j', passed⟩ := passes_of_spells value room'
    obtain ⟨items', passed'⟩ := passes_of_spellsItems items room' (i + 1)
    refine ⟨j' :: items', ?_⟩
    rw [bare_readItems]
    simp only [Layout.item?, readValue_ignored, passed, next, passed']
    rfl

theorem passes_of_spellsEntries {room : Nat} {s r : List Char} {entries : List (String × Json)} :
    SpellsEntries room s entries r →
      ∀ room', ∃ entries', bare (readEntries .ignored room' [] s) = .ok (entries', r)
  | .last quote text colon value closed, room' => by
    obtain ⟨name', lenient⟩ := readText_lenient text []
    obtain ⟨j', passed⟩ := passes_of_spells value room'
    refine ⟨[(name', j')], ?_⟩
    rw [bare_readEntries]
    simp [quote, Layout.strict, lenient, colon, Layout.entry, readValue_ignored, passed, closed]
  | .more quote text colon value next entries, room' => by
    obtain ⟨name', lenient⟩ := readText_lenient text []
    obtain ⟨j', passed⟩ := passes_of_spells value room'
    obtain ⟨entries', passed'⟩ := passes_of_spellsEntries entries room'
    refine ⟨(name', j') :: entries', ?_⟩
    rw [bare_readEntries]
    simp [quote, Layout.strict, lenient, colon, Layout.entry, readValue_ignored, passed, next,
      Layout.onlyOnce, passed', Except.map]

end

/-! ## Holding -/

mutual

/-- What a document is seen as when it is held against a layout, if it is not refused. -/
inductive Held : Layout → Json → Option Json → Prop
  | ignored {j j' : Json} : Held .ignored j (some j')
  | scalar {l : Layout} {j : Json} :
      Plain l → IsScalar j → l.allowsScalar = true → Held l j (some j)
  | noScalar {l : Layout} {j : Json} :
      Plain l → IsScalar j → l.allowsScalar = false → Held l j none
  | array {l : Layout} {items : List Json} {o : Option (List Json)} :
      Plain l → l.allowsArray = true → HeldItems l 0 items o → Held l (.array items) (o.map .array)
  | noArray {l : Layout} {items : List Json} :
      Plain l → l.allowsArray = false → Held l (.array items) none
  | object {l : Layout} {entries : List (String × Json)} {o : Option (List (String × Json))} :
      Plain l → l.allowsObject = true → HeldEntries l [] entries o →
      Held l (.object entries) (o.map .object)
  | noObject {l : Layout} {entries : List (String × Json)} :
      Plain l → l.allowsObject = false → Held l (.object entries) none
  | null {other : Layout} : Held (.orNull other) .null (some .null)
  | orNull {other : Layout} {j : Json} {o : Option Json} :
      j ≠ .null → Held other j o → Held (.orNull other) j o
  | tested {value : Layout} {accepts : Json → Bool} {j : Json} {o : Option Json} :
      Held value j o → Held (.tested value accepts) j (o.filter accepts)

/-- The items of an array from item `i` on. -/
inductive HeldItems : Layout → Nat → List Json → Option (List Json) → Prop
  | nil {l : Layout} {i : Nat} : HeldItems l i [] (some [])
  | surplus {l : Layout} {i : Nat} {j : Json} {rest : List Json} :
      l.item? i = none → HeldItems l i (j :: rest) none
  | refused {l item : Layout} {i : Nat} {j : Json} {rest : List Json} :
      l.item? i = some item → Held item j none → HeldItems l i (j :: rest) none
  | cons {l item : Layout} {i : Nat} {j j' : Json} {rest : List Json} {o : Option (List Json)} :
      l.item? i = some item → Held item j (some j') → HeldItems l (i + 1) rest o →
      HeldItems l i (j :: rest) (o.map (j' :: ·))

/-- The entries of an object; of the names that may stand only once, `before` are those that do. -/
inductive HeldEntries : Layout → List String → List (String × Json) →
    Option (List (String × Json)) → Prop
  | nil {l : Layout} {before : List String} : HeldEntries l before [] (some [])
  | again {l : Layout} {before : List String} {name : String} {j : Json}
      {rest : List (String × Json)} :
      before.contains name = true → HeldEntries l before ((name, j) :: rest) none
  | refused {l : Layout} {before : List String} {name : String} {j : Json}
      {rest : List (String × Json)} :
      before.contains name = false → Held (l.entry name) j none →
      HeldEntries l before ((name, j) :: rest) none
  | cons {l : Layout} {before : List String} {name : String} {j j' : Json}
      {rest : List (String × Json)} {o : Option (List (String × Json))} :
      before.contains name = false → Held (l.entry name) j (some j') →
      HeldEntries l (if l.onlyOnce name then name :: before else before) rest o →
      HeldEntries l before ((name, j) :: rest) (o.map ((name, j') :: ·))

end

/-! ## Steps -/

/-- A step that comes to `o` where the text goes on with `r`. -/
def ComesTo {α : Type} (x : Except Fault (α × List Char)) (r : List Char) : Option α → Prop
  | some a => x = .ok (a, r)
  | none => ∃ f, x = .error f

theorem ComesTo.map {α β : Type} {x : Except Fault (α × List Char)} {r : List Char} {o : Option α}
    (comes : ComesTo x r o) (f : α → β) : ComesTo (x.map fun p => (f p.1, p.2)) r (o.map f) := by
  cases o with
  | none =>
    obtain ⟨e, rfl⟩ := comes
    exact ⟨e, rfl⟩
  | some a =>
    have same : x = .ok (a, r) := comes
    subst same
    rfl

theorem readValue_plain {l : Layout} (plain : Plain l) (room : Nat) (s : List Char) :
    readValue l room s = readPlain l room s := by
  cases plain <;> rw [readValue]

/-- A layout that is no plain one is read by another one of the same text. -/
theorem follows_of_plain {room : Nat} {s r : List Char} {j : Json}
    (spelled : Spells room s j r) {room' : Nat}
    (follows : ∀ l, Plain l → Direct l →
      ∃ o, Held l j o ∧ ComesTo (bare (readPlain l room' s)) r o)
    {l : Layout} (direct : Direct l) :
    ∃ o, Held l j o ∧ ComesTo (bare (readValue l room' s)) r o := by
  induction direct with
  | ignored =>
    obtain ⟨j', passed⟩ := passes_of_spells spelled room'
    exact ⟨some j', .ignored, (readValue_ignored room' s) ▸ passed⟩
  | whole => exact readValue_plain .whole room' s ▸ follows _ .whole .whole
  | scalar => exact readValue_plain .scalar room' s ▸ follows _ .scalar .scalar
  | entries each => exact readValue_plain .entries room' s ▸ follows _ .entries (.entries each)
  | fields each => exact readValue_plain .fields room' s ▸ follows _ .fields (.fields each)
  | tagged value => exact readValue_plain .tagged room' s ▸ follows _ .tagged (.tagged value)
  | @orNull other _ ih =>
    rw [bare_readValue_orNull]
    by_cases isNull : j = .null
    · obtain ⟨rest, opened⟩ := (null_iff_of_spells spelled).1 isNull
      obtain ⟨o, held, comes⟩ := follows _ .scalar .scalar
      simp only [opened]
      subst isNull
      cases held with
      | scalar => exact ⟨_, .null, comes⟩
      | noScalar _ _ refused => cases refused
    · obtain ⟨o, held, comes⟩ := ih
      refine ⟨o, .orNull isNull held, ?_⟩
      split
      · rename_i opened
        exact absurd ((null_iff_of_spells spelled).2 ⟨_, opened⟩) isNull
      · exact comes
  | @tested value accepts _ ih =>
    obtain ⟨o, held, comes⟩ := ih
    refine ⟨_, .tested held, ?_⟩
    rw [bare_readValue_tested]
    cases o with
    | none =>
      obtain ⟨f, failed⟩ := comes
      rw [failed]
      exact ⟨f, rfl⟩
    | some j' =>
      rw [show bare (readValue value room' s) = .ok (j', r) from comes]
      by_cases accepted : accepts j' = true
      · rw [Option.filter_some_pos accepted]
        exact if_pos accepted
      · rw [Option.filter_some_neg (Bool.eq_false_iff.2 accepted)]
        exact ⟨_, if_neg accepted⟩

/-! ## Following -/

mutual

theorem follows_of_spells {room : Nat} {s r : List Char} {j : Json} :
    Spells room s j r → ∀ {l room'}, Plain l → Direct l → room ≤ room' →
      ∃ o, Held l j o ∧ ComesTo (bare (readPlain l room' s)) r o
  | .scalar noArray noObject read, l, room', plain, direct, _ => by
    have isScalar := (null_iff_of_readScalar read).1
    have reads : bare (readPlain l room' s) =
        if l.allowsScalar then .ok (j, r) else .error .mismatched := by
      rw [bare_readPlain]
      split
      · exact absurd ‹_› (noArray _)
      · exact absurd ‹_› (noObject _)
      · simp only [plain.strict, read]
    cases allowed : l.allowsScalar with
    | true => exact ⟨some j, .scalar plain isScalar allowed, reads.trans (if_pos allowed)⟩
    | false =>
      refine ⟨none, .noScalar plain isScalar allowed, .mismatched, ?_⟩
      rw [reads, allowed]
      rfl
  | .emptyArray opened closed, l, room' + 1, plain, direct, _ => by
    rw [bare_readPlain]
    cases allowed : l.allowsArray with
    | true =>
      refine ⟨some (.array []), .array plain allowed .nil, ?_⟩
      simp only [opened, plain.inside, closed, ↓reduceIte, ComesTo]
    | false =>
      refine ⟨none, .noArray plain allowed, .mismatched, ?_⟩
      simp only [opened, Bool.false_eq_true, ↓reduceIte]
  | .array opened noClose items, l, room' + 1, plain, direct, enough => by
    rw [bare_readPlain]
    cases allowed : l.allowsArray with
    | true =>
      obtain ⟨o, held, comes⟩ :=
        follows_of_spellsItems items 0 plain direct (Nat.le_of_succ_le_succ enough)
      refine ⟨o.map .array, .array plain allowed held, ?_⟩
      simp only [opened, plain.inside, ↓reduceIte]
      exact comes.map Json.array
    | false =>
      refine ⟨none, .noArray plain allowed, .mismatched, ?_⟩
      simp only [opened, Bool.false_eq_true, ↓reduceIte]
  | .emptyObject opened closed, l, room' + 1, plain, direct, _ => by
    rw [bare_readPlain]
    cases allowed : l.allowsObject with
    | true =>
      refine ⟨some (.object []), .object plain allowed .nil, ?_⟩
      simp only [opened, plain.inside, closed, ↓reduceIte, ComesTo]
    | false =>
      refine ⟨none, .noObject plain allowed, .mismatched, ?_⟩
      simp only [opened, Bool.false_eq_true, ↓reduceIte]
  | .object opened noClose entries, l, room' + 1, plain, direct, enough => by
    rw [bare_readPlain]
    cases allowed : l.allowsObject with
    | true =>
      obtain ⟨o, held, comes⟩ :=
        follows_of_spellsEntries entries [] plain direct (Nat.le_of_succ_le_succ enough)
      refine ⟨o.map .object, .object plain allowed held, ?_⟩
      simp only [opened, plain.inside, ↓reduceIte]
      exact comes.map Json.object
    | false =>
      refine ⟨none, .noObject plain allowed, .mismatched, ?_⟩
      simp only [opened, Bool.false_eq_true, ↓reduceIte]

theorem follows_of_spellsItems {room : Nat} {s r : List Char} {items : List Json} :
    SpellsItems room s items r → ∀ {l room'} i, Plain l → Direct l → room ≤ room' →
      ∃ o, HeldItems l i items o ∧ ComesTo (bare (readItems l room' i s)) r o
  | .last value closed, l, room', i, plain, direct, enough => by
    rw [bare_readItems]
    cases part : l.item? i with
    | none => exact ⟨none, .surplus part, .malformed, rfl⟩
    | some item =>
      obtain ⟨o, held, comes⟩ := follows_of_plain value
        (fun l plain direct => follows_of_spells value plain direct enough) (direct.item part)
      cases o with
      | none =>
        obtain ⟨f, failed⟩ := comes
        refine ⟨none, .refused part held, f, ?_⟩
        simp only [failed]
      | some j' =>
        refine ⟨some [j'], .cons part held .nil, ?_⟩
        simp only [ComesTo] at comes ⊢
        simp only [comes, closed]
  | .more value next items, l, room', i, plain, direct, enough => by
    rw [bare_readItems]
    cases part : l.item? i with
    | none => exact ⟨none, .surplus part, .malformed, rfl⟩
    | some item =>
      obtain ⟨o, held, comes⟩ := follows_of_plain value
        (fun l plain direct => follows_of_spells value plain direct enough) (direct.item part)
      cases o with
      | none =>
        obtain ⟨f, failed⟩ := comes
        refine ⟨none, .refused part held, f, ?_⟩
        simp only [failed]
      | some j' =>
        obtain ⟨o, held', comes'⟩ := follows_of_spellsItems items (i + 1) plain direct enough
        refine ⟨_, .cons part held held', ?_⟩
        simp only [ComesTo] at comes
        simp only [comes, next]
        exact comes'.map (j' :: ·)

theorem follows_of_spellsEntries {room : Nat} {s r : List Char} {entries : List (String × Json)} :
    SpellsEntries room s entries r → ∀ {l room'} before, Plain l → Direct l → room ≤ room' →
      ∃ o, HeldEntries l before entries o ∧ ComesTo (bare (readEntries l room' before s)) r o
  | @SpellsEntries.last _ _ _ _ _ _ _ name _ quote text colon value closed, l, room', before, plain,
      direct, enough => by
    rw [bare_readEntries]
    simp only [quote, plain.strict, text, colon]
    cases again : before.contains name with
    | true => exact ⟨none, .again again, .mismatched, rfl⟩
    | false =>
      simp only [Bool.false_eq_true, ↓reduceIte]
      obtain ⟨o, held, comes⟩ := follows_of_plain value
        (fun l plain direct => follows_of_spells value plain direct enough) (direct.entry name)
      cases o with
      | none =>
        obtain ⟨f, failed⟩ := comes
        refine ⟨none, .refused again held, f, ?_⟩
        simp only [failed]
      | some j' =>
        refine ⟨some [(name, j')], .cons again held .nil, ?_⟩
        simp only [ComesTo] at comes ⊢
        simp only [comes, closed]
  | @SpellsEntries.more _ _ _ _ _ _ _ _ name _ _ quote text colon value next entries, l, room', before,
      plain, direct, enough => by
    rw [bare_readEntries]
    simp only [quote, plain.strict, text, colon]
    cases again : before.contains name with
    | true => exact ⟨none, .again again, .mismatched, rfl⟩
    | false =>
      simp only [Bool.false_eq_true, ↓reduceIte]
      obtain ⟨o, held, comes⟩ := follows_of_plain value
        (fun l plain direct => follows_of_spells value plain direct enough) (direct.entry name)
      cases o with
      | none =>
        obtain ⟨f, failed⟩ := comes
        refine ⟨none, .refused again held, f, ?_⟩
        simp only [failed]
      | some j' =>
        obtain ⟨o, held', comes'⟩ := follows_of_spellsEntries entries _ plain direct enough
        refine ⟨_, .cons again held held', ?_⟩
        simp only [ComesTo] at comes
        simp only [comes, next]
        exact comes'.map ((name, j') :: ·)

end

/-- A text that is read along a layout comes to what its document is held as. -/
theorem held_of_parse {text : String} {j : Json} (document : parse text = .ok j) {l : Layout}
    (direct : Direct l) :
    ∃ o, Held l j o ∧ (Json.read l text).toOption = o := by
  unfold parse read at document
  split at document
  · cases document
  · rename_i j' rest rest' whole
    split at document
    · cases document
      rename_i done
      rw [readValue_plain .whole] at whole
      have spelled := spells_of_readPlain (congrArg bare whole)
      obtain ⟨o, held, comes⟩ := follows_of_plain spelled
        (fun l plain direct => follows_of_spells spelled plain direct (Nat.le_refl _)) direct
      refine ⟨o, held, ?_⟩
      unfold read
      cases o with
      | none =>
        obtain ⟨f, failed⟩ := comes
        rw [map_eq_error_iff.1 failed]
        rfl
      | some j' =>
        obtain ⟨⟨j'', r, shorter⟩, followed, same⟩ := map_eq_ok_iff.1 (show bare _ = .ok _ from comes)
        cases same
        rw [followed]
        simp only [done, ↓reduceIte, Except.toOption]
    · cases document

end Json

end WireBody
