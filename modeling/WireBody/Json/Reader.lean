import WireBody.Json.Layout
import WireBody.Text.Characters

/-!
# Reading JSON

The reader of JSON text.  It accepts exactly the grammar of the standard: no byte order mark, no
comments, no trailing commas, blanks only between tokens.  A document may nest 127 arrays and
objects, its numbers have to be within the range of doubles, and surrogate escapes have to come in
pairs; a `Layout` may ask for more, and exempts the parts that are passed over, whose values are
then of no account.

Each step returns the rest of the text, and a lemma beside it says that the rest is shorter.  That
is what the recursion of `readValue` ends on: a character weighs more than the steps between two of
them, and the layout of a part is no larger than that of the whole.  The measure is a plain number,
so a proof can read a small text by evaluation.
-/

set_option autoImplicit false

namespace WireBody.Json

/-! ## Blanks and words -/

/-- The text from its first token on. -/
def skipBlank (s : List Char) : List Char := s.dropWhile isBlank

theorem skipBlank_length (s : List Char) : (skipBlank s).length ≤ s.length :=
  (List.dropWhile_sublist isBlank).length_le

/-- The rest after the letters of a word. -/
def readWord : List Char → List Char → Except Fault (List Char)
  | [], s => .ok s
  | _ :: _, [] => .error .truncated
  | c :: word, d :: s => if c = d then readWord word s else .error .malformed

theorem readWord_length : ∀ {word s r : List Char}, readWord word s = .ok r → r.length ≤ s.length
  | [], s, r, h => by cases h; exact Nat.le_refl _
  | _ :: _, [], r, h => by cases h
  | c :: word, d :: s, r, h => by
    simp only [readWord] at h
    split at h
    · exact Nat.le_succ_of_le (readWord_length h)
    · cases h

/-! ## Strings -/

/-- The code unit of four hexadecimal digits.  The text is taken to end here if fewer than four
bytes are left of it. -/
def readUnit : List Char → Except Fault (Nat × List Char)
  | a :: b :: c :: d :: rest =>
    match hexDigit? a, hexDigit? b, hexDigit? c, hexDigit? d with
    | some a, some b, some c, some d => .ok (((a * 16 + b) * 16 + c) * 16 + d, rest)
    | _, _, _, _ => .error .malformed
  | s => .error (if s.foldl (fun size c => size + c.utf8Size) 0 < 4 then .truncated else .malformed)

theorem readUnit_length {s r : List Char} {n : Nat} (h : readUnit s = .ok (n, r)) :
    r.length + 4 = s.length := by
  unfold readUnit at h
  split at h
  · split at h
    · cases h; rfl
    · cases h
  · cases h

/-- First halves of surrogate pairs. -/
def isLeading (n : Nat) : Bool := 0xD800 ≤ n && n ≤ 0xDBFF

/-- Second halves of surrogate pairs. -/
def isTrailing (n : Nat) : Bool := 0xDC00 ≤ n && n ≤ 0xDFFF

/-- The character of a surrogate pair. -/
def ofPair (leading trailing : Nat) : Char :=
  Char.ofNat (0x10000 + (leading - 0xD800) * 0x400 + (trailing - 0xDC00))

/-- The character of a numeric escape, from its digits on.  In strict text a surrogate has to be
followed by the escape of its other half; otherwise it stands for itself and is passed over. -/
def readNumericEscape (strict : Bool) (s : List Char) : Except Fault (Char × List Char) :=
  match readUnit s with
  | .error f => .error f
  | .ok (n, rest) =>
    if strict && isTrailing n then .error .malformed
    else if strict && isLeading n then
      match rest with
      | '\\' :: 'u' :: more =>
        match readUnit more with
        | .error f => .error f
        | .ok (m, rest) => if isTrailing m then .ok (ofPair n m, rest) else .error .malformed
      | [] | ['\\'] => .error .truncated
      | _ => .error .malformed
    else .ok (Char.ofNat n, rest)

theorem readNumericEscape_length {strict : Bool} {s r : List Char} {c : Char}
    (h : readNumericEscape strict s = .ok (c, r)) : r.length < s.length := by
  unfold readNumericEscape at h
  split at h
  · cases h
  · rename_i n rest unit
    have := readUnit_length unit
    split at h
    · cases h
    · split at h
      · split at h
        · split at h
          · cases h
          · rename_i m r' unit'
            have := readUnit_length unit'
            split at h
            · rw [Except.ok.injEq, Prod.mk.injEq] at h
              obtain ⟨-, rfl⟩ := h
              simp only [List.length_cons] at *
              omega
            · cases h
        · cases h
        · cases h
        · cases h
      · rw [Except.ok.injEq, Prod.mk.injEq] at h
        obtain ⟨-, rfl⟩ := h
        omega

/-- The character that a letter after a backslash stands for. -/
def escaped? : Char → Option Char
  | '"' => some '"'
  | '\\' => some '\\'
  | '/' => some '/'
  | 'b' => some '\x08'
  | 'f' => some '\x0c'
  | 'n' => some '\n'
  | 'r' => some '\r'
  | 't' => some '\t'
  | _ => none

/-- The character of an escape, from behind the backslash on. -/
def readEscape (strict : Bool) : List Char → Except Fault (Char × List Char)
  | [] => .error .truncated
  | 'u' :: rest => readNumericEscape strict rest
  | c :: rest =>
    match escaped? c with
    | some d => .ok (d, rest)
    | none => .error .malformed

theorem readEscape_length {strict : Bool} {s r : List Char} {c : Char}
    (h : readEscape strict s = .ok (c, r)) : r.length < s.length := by
  unfold readEscape at h
  split at h
  · cases h
  · exact Nat.lt_succ_of_lt (readNumericEscape_length h)
  · split at h
    · cases h; exact Nat.lt_succ_self _
    · cases h

/-- The rest of a string from behind its opening quote, after the characters `before` (last one
first). -/
def readText (strict : Bool) (before : List Char) (s : List Char) :
    Except Fault (String × List Char) :=
  match s with
  | [] => .error .truncated
  | '"' :: rest => .ok (String.ofList before.reverse, rest)
  | '\\' :: rest =>
    match h : readEscape strict rest with
    | .error f => .error f
    | .ok (c, rest') =>
      have := readEscape_length h
      readText strict (c :: before) rest'
  | c :: rest => if c < ' ' then .error .malformed else readText strict (c :: before) rest
termination_by s.length

theorem readText_length {strict : Bool} (before s : List Char) {t : String} {r : List Char}
    (h : readText strict before s = .ok (t, r)) : r.length < s.length := by
  fun_induction readText strict before s with
  | case1 => cases h
  | case2 => cases h; exact Nat.lt_succ_self _
  | case3 => cases h
  | case4 before rest c rest' escape shorter ih =>
    have := ih h
    simp only [List.length_cons]
    omega
  | case5 => cases h
  | case6 before c rest _ _ _ ih => exact Nat.lt_succ_of_lt (ih h)

/-! ## Numbers -/

/-- A run of at least one digit. -/
def readDigits (s : List Char) : Except Fault (List Char × List Char) :=
  match s with
  | [] => .error .truncated
  | c :: _ =>
    if c.isDigit then .ok (s.takeWhile Char.isDigit, s.dropWhile Char.isDigit)
    else .error .malformed

theorem readDigits_length {s ds r : List Char} (h : readDigits s = .ok (ds, r)) :
    r.length < s.length := by
  unfold readDigits at h
  split at h
  · cases h
  · rename_i c rest
    split at h
    · rename_i digit
      cases h
      rw [List.dropWhile_cons_of_pos digit]
      exact Nat.lt_succ_of_le (List.dropWhile_sublist _).length_le
    · cases h

/-- The digits before the point: a leading zero stands alone. -/
def readWhole (s : List Char) : Except Fault (List Char × List Char) :=
  match s with
  | '0' :: c :: rest => if c.isDigit then .error .malformed else .ok (['0'], c :: rest)
  | _ => readDigits s

theorem readWhole_length {s ds r : List Char} (h : readWhole s = .ok (ds, r)) :
    r.length < s.length := by
  unfold readWhole at h
  split at h
  · split at h
    · cases h
    · cases h; exact Nat.lt_succ_self _
  · exact readDigits_length h

/-- The digits after the point, where there is a point. -/
def readFraction (s : List Char) : Except Fault (Option (List Char) × List Char) :=
  match s with
  | '.' :: rest =>
    match readDigits rest with
    | .ok (ds, r) => .ok (some ds, r)
    | .error f => .error f
  | _ => .ok (none, s)

theorem readFraction_length {s r : List Char} {ds : Option (List Char)}
    (h : readFraction s = .ok (ds, r)) : r.length ≤ s.length := by
  unfold readFraction at h
  split at h
  · split at h
    · rename_i digits
      cases h
      exact Nat.le_of_lt (Nat.lt_succ_of_lt (readDigits_length digits))
    · cases h
  · cases h; exact Nat.le_refl _

/-- The sign of an exponent. -/
def readSign : List Char → Bool × List Char
  | '+' :: rest => (false, rest)
  | '-' :: rest => (true, rest)
  | s => (false, s)

theorem readSign_length (s : List Char) : (readSign s).2.length ≤ s.length := by
  unfold readSign
  split <;> simp

/-- The exponent, where there is one. -/
def readExponent (s : List Char) : Except Fault (Option Int × List Char) :=
  match s with
  | c :: rest =>
    if c = 'e' ∨ c = 'E' then
      match readDigits (readSign rest).2 with
      | .ok (ds, r) =>
        .ok (some (if (readSign rest).1 then -(ofDigits ds : Int) else ofDigits ds), r)
      | .error f => .error f
    else .ok (none, s)
  | [] => .ok (none, s)

theorem readExponent_length {s r : List Char} {e : Option Int}
    (h : readExponent s = .ok (e, r)) : r.length ≤ s.length := by
  unfold readExponent at h
  split at h
  · rename_i c rest
    split at h
    · split at h
      · rename_i digits
        cases h
        have := readDigits_length digits
        have := readSign_length rest
        simp only [List.length_cons]
        omega
      · cases h
    · cases h; exact Nat.le_refl _
  · cases h; exact Nat.le_refl _

/-- A number without its sign. -/
def readMagnitude (negative : Bool) (s : List Char) : Except Fault (Literal × List Char) :=
  match readWhole s with
  | .error f => .error f
  | .ok (whole, s) =>
    match readFraction s with
    | .error f => .error f
    | .ok (fraction, s) =>
      match readExponent s with
      | .error f => .error f
      | .ok (exponent, s) =>
        .ok (.ofParts negative whole fraction exponent, s)

theorem readMagnitude_length {negative : Bool} {s r : List Char} {l : Literal}
    (h : readMagnitude negative s = .ok (l, r)) : r.length < s.length := by
  unfold readMagnitude at h
  split at h
  · cases h
  · rename_i whole s₁ readsWhole
    split at h
    · cases h
    · rename_i fraction s₂ readsFraction
      split at h
      · cases h
      · rename_i exponent s₃ readsExponent
        cases h
        have := readWhole_length readsWhole
        have := readFraction_length readsFraction
        have := readExponent_length readsExponent
        omega

/-- A number literal. -/
def readLiteral : List Char → Except Fault (Literal × List Char)
  | '-' :: rest => readMagnitude true rest
  | s => readMagnitude false s

theorem readLiteral_length {s r : List Char} {l : Literal} (h : readLiteral s = .ok (l, r)) :
    r.length < s.length := by
  unfold readLiteral at h
  split at h
  · exact Nat.lt_succ_of_lt (readMagnitude_length h)
  · exact readMagnitude_length h

/-- A number.  Outside strict text its size does not matter, and one cut short is malformed. -/
def readNumber (strict : Bool) (s : List Char) : Except Fault (Json × List Char) :=
  match readLiteral s with
  | .error f => .error (if strict then f else .malformed)
  | .ok (l, rest) =>
    if strict then
      match Number.ofLiteral? l with
      | some n => .ok (.number n, rest)
      | none => .error .malformed
    else .ok (.null, rest)

theorem readNumber_length {strict : Bool} {s r : List Char} {j : Json}
    (h : readNumber strict s = .ok (j, r)) : r.length < s.length := by
  unfold readNumber at h
  split at h
  · cases h
  · rename_i literal
    split at h
    · split at h
      · cases h; exact readLiteral_length literal
      · cases h
    · cases h; exact readLiteral_length literal

/-! ## Values -/

/-- What is left of a text after a step that took something of it. -/
abbrev Rest (s : List Char) : Type := { r : List Char // r.length < s.length }

/-- A string, number, truth value or null. -/
def readScalar (strict : Bool) (s : List Char) : Except Fault (Json × List Char) :=
  match s with
  | [] => .error .truncated
  | '"' :: rest => (readText strict [] rest).map fun (t, r) => (.string t, r)
  | 'n' :: rest => (readWord ['u', 'l', 'l'] rest).map fun r => (.null, r)
  | 't' :: rest => (readWord ['r', 'u', 'e'] rest).map fun r => (.bool true, r)
  | 'f' :: rest => (readWord ['a', 'l', 's', 'e'] rest).map fun r => (.bool false, r)
  | c :: rest => if c = '-' ∨ c.isDigit then readNumber strict (c :: rest) else .error .malformed

theorem readScalar_length {strict : Bool} {s r : List Char} {j : Json}
    (h : readScalar strict s = .ok (j, r)) : r.length < s.length := by
  have word : ∀ {w rest : List Char} {v : Json},
      (readWord w rest).map (fun r => (v, r)) = .ok (j, r) → r.length ≤ rest.length := by
    intro w rest v h
    cases e : readWord w rest with
    | error f => rw [e] at h; cases h
    | ok r' => rw [e] at h; cases h; exact readWord_length e
  unfold readScalar at h
  split at h
  · cases h
  · rename_i rest
    cases e : readText strict [] rest with
    | error f => rw [e] at h; cases h
    | ok p =>
      rw [e] at h
      cases h
      exact Nat.lt_succ_of_lt (readText_length [] rest e)
  · exact Nat.lt_succ_of_le (word h)
  · exact Nat.lt_succ_of_le (word h)
  · exact Nat.lt_succ_of_le (word h)
  · split at h
    · exact readNumber_length h
    · cases h

/-- The rest of `s` behind the token that its blanks hide. -/
theorem lt_of_skipBlank {s r : List Char} {c : Char} (h : skipBlank s = c :: r) :
    r.length < s.length := by
  have := skipBlank_length s
  rw [h, List.length_cons] at this
  omega

/-- The layout of the null in a choice is small. -/
theorem sizeOf_null_le : sizeOf (Layout.takenBy .scalar asNull) ≤ 3 := by
  simp [Layout.takenBy]

mutual

/-- A value of a layout, with room for so many arrays and objects around one another. -/
def readValue (l : Layout) (room : Nat) (s : List Char) : Except Fault (Json × Rest s) :=
  match shaped : l with
  | .tested value accepts =>
    match readValue value room s with
    | .error f => .error f
    | .ok (j, rest) => if accepts j then .ok (j, rest) else .error .mismatched
  | .orNull other =>
    have := other.one_le_sizeOf
    match skipBlank s with
    | 'n' :: _ => readPlain .scalar room s
    | _ => readValue other room s
  | .choice name =>
    match open_ : skipBlank s with
    | '{' :: rest =>
      have := lt_of_skipBlank open_
      match room with
      | 0 => .error .malformed
      | room + 1 =>
        match readChoice name room rest with
        | .error f => .error f
        | .ok (j, ⟨rest', _⟩) => .ok (j, ⟨rest', by omega⟩)
    | '"' :: _ => readValue name room s
    | [] => .error .truncated
    | _ => .error .malformed
  | .ignored | .whole | .scalar | .entries _ | .fields _ | .tagged _ _ =>
    have := congrArg sizeOf shaped
    readPlain l room s
termination_by 8 * s.length + sizeOf l + 1
decreasing_by
  · rw [Layout.tested.sizeOf_spec]
    omega
  · rw [Layout.orNull.sizeOf_spec, Layout.scalar.sizeOf_spec]
    omega
  · rw [Layout.orNull.sizeOf_spec]
    omega
  · rw [Layout.choice.sizeOf_spec]
    omega
  · rw [Layout.choice.sizeOf_spec]
    omega
  all_goals omega

/-- A value of a layout that leaves no choice. -/
def readPlain (l : Layout) (room : Nat) (s : List Char) : Except Fault (Json × Rest s) :=
  match open_ : skipBlank s with
  | '[' :: rest =>
    have := lt_of_skipBlank open_
    if l.allowsArray then
      match l.inside room with
      | none => .error .malformed
      | some room =>
        match close : skipBlank rest with
        | ']' :: rest' =>
          have := lt_of_skipBlank close
          .ok (.array [], ⟨rest', by omega⟩)
        | _ =>
          match readItems l room 0 rest with
          | .error f => .error f
          | .ok (items, ⟨rest', _⟩) => .ok (.array items, ⟨rest', by omega⟩)
    else .error .mismatched
  | '{' :: rest =>
    have := lt_of_skipBlank open_
    if l.allowsObject then
      match l.inside room with
      | none => .error .malformed
      | some room =>
        match close : skipBlank rest with
        | '}' :: rest' =>
          have := lt_of_skipBlank close
          .ok (.object [], ⟨rest', by omega⟩)
        | _ =>
          match readEntries l room [] rest with
          | .error f => .error f
          | .ok (entries, ⟨rest', _⟩) => .ok (.object entries, ⟨rest', by omega⟩)
    else .error .mismatched
  | _ =>
    match scalar : readScalar l.strict (skipBlank s) with
    | .error f => .error f
    | .ok (j, rest) =>
      if l.allowsScalar then
        .ok (j, ⟨rest, Nat.lt_of_lt_of_le (readScalar_length scalar) (skipBlank_length s)⟩)
      else .error .mismatched
termination_by 8 * s.length + sizeOf l
decreasing_by
  all_goals omega

/-- The items of an array from item `i` on, up to and with its closing bracket. -/
def readItems (l : Layout) (room : Nat) (i : Nat) (s : List Char) :
    Except Fault (List Json × Rest s) :=
  match part : l.item? i with
  | none => .error .malformed
  | some item =>
    have := Layout.sizeOf_item?_le part
    match readValue item room s with
    | .error f => .error f
    | .ok (j, ⟨rest, _⟩) =>
      match next : skipBlank rest with
      | ',' :: rest' =>
        have := lt_of_skipBlank next
        match readItems l room (i + 1) rest' with
        | .error f => .error f
        | .ok (items, ⟨rest'', _⟩) => .ok (j :: items, ⟨rest'', by omega⟩)
      | ']' :: rest' =>
        have := lt_of_skipBlank next
        .ok ([j], ⟨rest', by omega⟩)
      | [] => .error .truncated
      | _ => .error .malformed
termination_by 8 * s.length + sizeOf l + 6
decreasing_by
  all_goals omega

/-- The entries of an object from here on, up to and with its closing brace; of the names that may
stand only once, `before` are those that do. -/
def readEntries (l : Layout) (room : Nat) (before : List String) (s : List Char) :
    Except Fault (List (String × Json) × Rest s) :=
  match quote : skipBlank s with
  | '"' :: rest =>
    have := lt_of_skipBlank quote
    match text : readText l.strict [] rest with
    | .error f => .error f
    | .ok (name, rest₁) =>
      have := readText_length [] rest text
      if before.contains name then .error .mismatched
      else
        match colon : skipBlank rest₁ with
        | ':' :: rest₂ =>
          have := lt_of_skipBlank colon
          have := l.sizeOf_entry_le name
          match readValue (l.entry name) room rest₂ with
          | .error f => .error f
          | .ok (j, ⟨rest₃, _⟩) =>
            match next : skipBlank rest₃ with
            | ',' :: rest₄ =>
              have := lt_of_skipBlank next
              match readEntries l room (if l.onlyOnce name then name :: before else before)
                rest₄ with
              | .error f => .error f
              | .ok (entries, ⟨rest₅, _⟩) => .ok ((name, j) :: entries, ⟨rest₅, by omega⟩)
            | '}' :: rest₄ =>
              have := lt_of_skipBlank next
              .ok ([(name, j)], ⟨rest₄, by omega⟩)
            | [] => .error .truncated
            | _ => .error .malformed
        | [] => .error .truncated
        | _ => .error .malformed
  | [] => .error .truncated
  | _ => .error .malformed
termination_by 8 * s.length + sizeOf l + 6
decreasing_by
  all_goals omega

/-- The entry of an object that is a choice, up to and with its closing brace. -/
def readChoice (name : Layout) (room : Nat) (s : List Char) : Except Fault (Json × Rest s) :=
  match readValue name room s with
  | .error f => .error f
  | .ok (chosen, ⟨rest, taken⟩) =>
    match colon : skipBlank rest with
    | ':' :: rest₁ =>
      have marked := Nat.lt_trans (lt_of_skipBlank colon) taken
      match readValue (.takenBy .scalar asNull) room rest₁ with
      | .error f => .error f
      | .ok (j, ⟨rest₂, behind⟩) =>
        match close : skipBlank rest₂ with
        | '}' :: rest₃ =>
          have closed := Nat.lt_trans (lt_of_skipBlank close) (Nat.lt_trans behind marked)
          match chosen with
          | .string n => .ok (.object [(n, j)], ⟨rest₃, closed⟩)
          | _ => .error .mismatched
        | [] => .error .truncated
        | _ => .error .malformed
    | [] => .error .truncated
    | _ => .error .malformed
termination_by 8 * s.length + sizeOf name + 6
decreasing_by
  all_goals
    have := sizeOf_null_le
    omega

end

/-- How far arrays and objects may nest. -/
def maxNesting : Nat := 127

/-- The document of a text: one value, and blanks around it. -/
def read (l : Layout) (text : String) : Except Fault Json :=
  match readValue l maxNesting text.toList with
  | .error f => .error f
  | .ok (j, ⟨rest, _⟩) => if (skipBlank rest).isEmpty then .ok j else .error .malformed

/-- Read a whole text as a document. -/
def parse (text : String) : Except Fault Json := read .whole text

end WireBody.Json
