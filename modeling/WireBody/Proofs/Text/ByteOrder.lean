import Mathlib.Data.List.Basic

/-!
# Texts in the order of their bytes

Names are compared character by character.  This is the order of their bytes as well: the byte that
begins a character tells how many follow it and grows with their number, and of two characters of
the same length the lesser one has the lesser bytes.

Main statement: `lt_iff_bytes_lt`.
-/

set_option autoImplicit false

namespace WireBody.Text

/-- The bytes of a text. -/
def bytes (s : String) : List UInt8 := s.toUTF8.data.toList

theorem bytes_eq_flatMap (s : String) : bytes s = s.toList.flatMap String.utf8EncodeChar := by
  have encoded : (String.ofList s.toList).toByteArray = s.toList.utf8Encode :=
    String.toByteArray_ofList
  rw [String.ofList_toList] at encoded
  rw [bytes, String.toUTF8, encoded, List.utf8Encode, List.data_toByteArray]

/-! ## Lists -/

/-- Where lists of one length differ, what follows does not matter. -/
theorem append_lt_append_of_length_eq {α : Type} [LT α] {a b : List α}
    (length : a.length = b.length) (lt : a < b) (r r' : List α) : a ++ r < b ++ r' := by
  induction a generalizing b with
  | nil =>
    have empty : b = [] := List.length_eq_zero_iff.1 length.symm
    rw [empty] at lt
    exact absurd lt (List.not_lt_nil [])
  | cons x a ih =>
    obtain ⟨y, b, rfl⟩ := List.exists_cons_of_length_eq_add_one length.symm
    rw [List.cons_append, List.cons_append, List.cons_lt_cons_iff]
    rcases List.cons_lt_cons_iff.1 lt with first | ⟨same, rest⟩
    · exact .inl first
    · exact .inr ⟨same, ih (Nat.succ.inj length) rest⟩

/-! ## Characters -/

theorem toNat_lt_of_char (c : Char) : c.val.toNat < 1114112 := by
  have valid : c.val.toNat < 0xd800 ∨ 0xdfff < c.val.toNat ∧ c.val.toNat < 0x110000 := c.valid
  omega

theorem cons_ofNat_lt_iff {i j : Nat} {u v : List UInt8} :
    UInt8.ofNat i :: u < UInt8.ofNat j :: v ↔
      i % 256 < j % 256 ∨ i % 256 = j % 256 ∧ u < v := by
  rw [List.cons_lt_cons_iff, UInt8.lt_iff_toNat_lt, ← UInt8.toNat_inj, UInt8.toNat_ofNat',
    UInt8.toNat_ofNat']

/-- The lesser of two characters has the lesser bytes, whatever follows them. -/
theorem encode_lt_encode {c d : Char} (lt : c < d) (r r' : List UInt8) :
    String.utf8EncodeChar c ++ r < String.utf8EncodeChar d ++ r' := by
  have below : c.val.toNat < d.val.toNat := UInt32.lt_iff_toNat_lt.1 (Char.lt_def.1 lt)
  have bound : d.val.toNat < 1114112 := toNat_lt_of_char d
  unfold String.utf8EncodeChar
  generalize c.val.toNat = m at below ⊢
  generalize d.val.toNat = n at below bound ⊢
  dsimp only
  -- The first bytes differ if the characters have different lengths, and else some of them do.
  have longer {i j : Nat} {u v : List UInt8} (first : i % 256 < j % 256) :
      UInt8.ofNat i :: u ++ r < UInt8.ofNat j :: v ++ r' :=
    cons_ofNat_lt_iff.2 (.inl first)
  by_cases one : n ≤ 127
  · rw [if_pos one, if_pos (by omega)]
    exact longer (by omega)
  rw [if_neg one]
  by_cases two : n ≤ 2047
  · rw [if_pos two]
    split
    · exact longer (by omega)
    · rw [if_pos (by omega)]
      apply append_lt_append_of_length_eq (by rfl)
      simp only [cons_ofNat_lt_iff, List.not_lt_nil]
      omega
  rw [if_neg two]
  by_cases three : n ≤ 65535
  · rw [if_pos three]
    split
    · exact longer (by omega)
    split
    · exact longer (by omega)
    · rw [if_pos (by omega)]
      apply append_lt_append_of_length_eq (by rfl)
      simp only [cons_ofNat_lt_iff, List.not_lt_nil]
      omega
  rw [if_neg three]
  split
  · exact longer (by omega)
  split
  · exact longer (by omega)
  split
  · exact longer (by omega)
  · apply append_lt_append_of_length_eq (by rfl)
    simp only [cons_ofNat_lt_iff, List.not_lt_nil]
    by_cases third : m / 64 < n / 64
    · by_cases second : m / 4096 < n / 4096
      · omega
      · omega
    · omega

/-! ## Texts -/

theorem flatMap_encode_lt {s t : List Char} (lt : s < t) :
    s.flatMap String.utf8EncodeChar < t.flatMap String.utf8EncodeChar := by
  induction t generalizing s with
  | nil => exact absurd lt (List.not_lt_nil s)
  | cons d t ih =>
    rw [List.flatMap_cons]
    cases s with
    | nil =>
      rw [List.flatMap_nil]
      obtain ⟨x, u, encoded⟩ := List.exists_cons_of_ne_nil (String.utf8EncodeChar_ne_nil (c := d))
      rw [encoded, List.cons_append]
      exact List.nil_lt_cons x _
    | cons c s =>
      rw [List.flatMap_cons]
      rcases List.cons_lt_cons_iff.1 lt with first | ⟨rfl, rest⟩
      · exact encode_lt_encode first _ _
      · exact List.append_left_lt (ih rest)

/-- Texts are ordered as their bytes are. -/
theorem lt_iff_bytes_lt {s t : String} : s < t ↔ bytes s < bytes t := by
  have forward {s t : String} (lt : s < t) : bytes s < bytes t := by
    rw [bytes_eq_flatMap, bytes_eq_flatMap]
    exact flatMap_encode_lt (String.lt_iff.1 lt)
  constructor
  · exact forward
  · intro lt
    by_contra notLt
    have le : t ≤ s := String.not_lt.1 notLt
    have notGt : ¬ t < s := fun gt => List.lt_asymm lt (forward gt)
    have same : t = s := String.le_antisymm le (String.not_lt.1 notGt)
    rw [same] at lt
    exact List.lt_irrefl _ lt

end WireBody.Text
