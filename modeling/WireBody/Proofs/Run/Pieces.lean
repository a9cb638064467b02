import WireBody.Compile.Member
import WireBody.Proofs.Entries
import WireBody.Run.Interp

/-!
# The pieces of a body

What the texts, truth values, bytes, namespaces and elements of a body are, said of each once: when
there is one and which, and which failure there is otherwise.  No program and no walk through a
description is needed for this, and bodies that are made in different ways are made of these.
-/

set_option autoImplicit false

namespace WireBody.Run

open WireBody.Compile
open WireBody.Program
open WireBody.Request
open WireBody.Service
open WireBody.Xml

/-! ## Texts and bytes -/

theorem fromUTF8?_eq_some_iff {content : ByteArray} {text : String} :
    String.fromUTF8? content = some text ↔ content = text.toUTF8 := by
  unfold String.fromUTF8?
  constructor
  · intro read
    split at read
    · cases read
      rfl
    · cases read
  · rintro rfl
    exact dif_pos text.isValidUTF8

theorem fromUTF8?_eq_none_iff {content : ByteArray} :
    String.fromUTF8? content = none ↔ ¬ content.IsValidUTF8 := by
  unfold String.fromUTF8?
  split <;> simp [*]

section

variable {name text : String} {v : Value} {e : RunError}

/-- A text is written as it is, and bytes as the text that they encode. -/
theorem textOf_eq_ok_iff : textOf name v = .ok text ↔ v = .text text ∨ v = .blob text.toUTF8 := by
  cases v with
  | text s => simp [textOf]
  | blob bytes =>
    rw [textOf]
    cases read : String.fromUTF8? bytes with
    | some s => simp [fromUTF8?_eq_some_iff.1 read, String.toByteArray_inj]
    | none =>
      simp only [reduceCtorEq, Value.blob.injEq, false_or, false_iff]
      rintro rfl
      rw [fromUTF8?_eq_some_iff.2 rfl] at read
      cases read
  | struct _ | list _ | boolean _ => simp [textOf]

/-- Bytes that encode no text cannot be written as one, nor can anything else. -/
theorem textOf_eq_error_iff :
    textOf name v = .error e ↔
      (∃ bytes, v = .blob bytes ∧ ¬ bytes.IsValidUTF8 ∧ e = .invalidUtf8 name) ∨
      v.kind ≠ .text ∧ v.kind ≠ .blob ∧ e = .typeMismatch name .text v.kind := by
  cases v with
  | blob bytes =>
    rw [textOf]
    cases read : String.fromUTF8? bytes with
    | some s => simp [fromUTF8?_eq_some_iff.1 read, Value.kind, s.isValidUTF8]
    | none => simp [fromUTF8?_eq_none_iff.1 read, Value.kind, eq_comm]
  | text _ | struct _ | list _ | boolean _ => simp [textOf, Value.kind, eq_comm]

/-- A truth value is written as one of two words. -/
theorem booleanOf_eq_ok_iff :
    booleanOf name v = .ok text ↔
      v = .boolean true ∧ text = "true" ∨ v = .boolean false ∧ text = "false" := by
  cases v with
  | boolean b => cases b <;> simp [booleanOf, booleanText, eq_comm]
  | struct _ | list _ | text _ | blob _ => simp [booleanOf]

theorem booleanOf_eq_error_iff :
    booleanOf name v = .error e ↔ v.kind ≠ .boolean ∧ e = .typeMismatch name .boolean v.kind := by
  cases v <;> simp [booleanOf, Value.kind, eq_comm]

variable {v : Option Value} {content : ByteArray}

/-- Bytes and texts are sent as they are, and what is absent is no bytes. -/
theorem rawBytes_eq_ok_iff :
    rawBytes name v = .ok content ↔
      v = none ∧ content = .empty ∨ v = some (.blob content) ∨
        ∃ s, v = some (.text s) ∧ content = s.toUTF8 := by
  cases v with
  | none => simp [rawBytes, eq_comm]
  | some v => cases v <;> simp [rawBytes, eq_comm]

theorem rawBytes_eq_error_iff :
    rawBytes name v = .error e ↔
      ∃ w, v = some w ∧ w.kind ≠ .text ∧ w.kind ≠ .blob ∧
        e = .typeMismatch name .blob w.kind := by
  cases v with
  | none => simp [rawBytes]
  | some v => cases v <;> simp [rawBytes, Value.kind, eq_comm]

end

/-! ## Namespaces -/

/-- Without an abbreviation, or under an empty one, a namespace is the default one. -/
theorem name_declarationOf (ns : XmlNamespace) :
    (declarationOf ns).name = "xmlns" ∧ (ns.nsPrefix = none ∨ ns.nsPrefix = some "") ∨
      ∃ p, ns.nsPrefix = some p ∧ p ≠ "" ∧ (declarationOf ns).name = "xmlns:" ++ p := by
  unfold declarationOf
  cases ns.nsPrefix with
  | none => simp
  | some p =>
    by_cases empty : p = ""
    · simp [empty]
    · simp [empty, String.isEmpty_iff]

/-- A member's own namespace goes before that of its shape. -/
theorem namespaceFor_eq_some_iff {m : Member} {s : Shape} {d : NamespaceDeclaration} :
    namespaceFor m s = some d ↔
      ∃ ns, (m.xmlNamespace = some ns ∨ m.xmlNamespace = none ∧ s.xmlNamespace = some ns) ∧
        declarationOf ns = d := by
  rw [namespaceFor, Option.map_eq_some_iff]
  simp only [Option.or_eq_some_iff]

theorem namespaceFor_eq_none_iff {m : Member} {s : Shape} :
    namespaceFor m s = none ↔ m.xmlNamespace = none ∧ s.xmlNamespace = none := by
  rw [namespaceFor, Option.map_eq_none_iff, Option.or_eq_none_iff]

/-! ## Elements -/

/-- An element has the children of its content.  Its attributes are its namespace and those of the
content, each name once, where it first comes, and with its last text. -/
theorem elementOf_eq (tag : String) (declared : Option NamespaceDeclaration) (c : Content) :
    ∃ attributes, elementOf tag declared c = .element tag attributes c.children ∧
      attributes.map (·.1) =
        (declared.toList.map (·.name) ++ c.attributes.map (·.1)).eraseDups ∧
      ∀ name, attributes.lookup name =
        (lastOf c.attributes name).or ((declared.filter (·.name = name)).map (·.uri)) := by
  refine ⟨_, rfl, ?_, fun name => ?_⟩
  · rw [names_collect, List.map_append, List.map_map]
    rfl
  · rw [lookup_collect]
    cases declared with
    | none => simp
    | some d =>
      by_cases same : d.name = name
      · simp [lastOf_cons, Option.filter_some, same]
      · simp [lastOf_cons, Option.filter_some, same, Ne.symm same]

end WireBody.Run
