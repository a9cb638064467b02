import WireBody.Proofs.Run.Written
import WireBody.Proofs.Xml.Processor

/-!
# What a processor makes of a run

The document of a run consists of characters of XML 1.0 just if the texts and values that were
written do, and a processor then reads these with their line ends and blanks changed.  Nothing is
lost just if no text has a carriage return, and the values have no blanks but spaces.

Main statement: `process_of_serialize`.
-/

set_option autoImplicit false

namespace WireBody.Run

open WireBody.Program
open WireBody.Request
open WireBody.Xml

theorem legal_declaration (declared : Bool) : Legal (if declared then declaration else "") := by
  cases declared <;> decide

/-- What a processor reads of the bytes of a document, behind its declaration. -/
theorem process_of_serialize {p : Program} (program : p.Named) (document : needsDocument p = true)
    {declared : Bool} {request : Option Value} {bytes : ByteArray}
    (written : p.serialize declared request = .ok bytes) (nonempty : bytes ≠ .empty) :
    ∃ forest text,
      p.run request = .ok (.document forest) ∧
      bytes = ((if declared then declaration else "") ++ text).toUTF8 ∧
      (Legal ((if declared then declaration else "") ++ text) ↔
        ∀ n ∈ forest, n.All Legal Legal) ∧
      (Legal text → process text = some (mapForest endLines (spaced ∘ endLines) forest)) ∧
      (process text = some forest ↔ ∀ n ∈ forest, n.All TextKept ValueKept) := by
  obtain ⟨forest, ran, elements, proper, rfl⟩ :=
    document_of_serialize program document written nonempty
  rw [writeDocument_of_ne_nil elements]
  refine ⟨forest, writeForest forest, ran, rfl, ?_, process_writeForest proper,
    process_writeForest_eq_iff proper⟩
  rw [legal_append_iff, legal_writeForest_iff proper]
  exact and_iff_right (legal_declaration declared)

theorem process_of_serialize_folder :
    ∃ forest text,
      Compile.folderProgram.run (some (folderRequest "")) = .ok (.document forest) ∧
      folderText.toUTF8 = ("" ++ text).toUTF8 ∧
      (Legal ("" ++ text) ↔ ∀ n ∈ forest, n.All Legal Legal) ∧
      (Legal text → process text = some (mapForest endLines (spaced ∘ endLines) forest)) ∧
      (process text = some forest ↔ ∀ n ∈ forest, n.All TextKept ValueKept) :=
  process_of_serialize named_folderProgram rfl (serialize_folderRequest "") (by decide)

/-- A request to put a folder with this name and owner. -/
def ownedFolder (name owner : String) : Value :=
  .struct [("Root", .struct [("Id", .text name), ("Owner", .text owner)])]

/-- A tab in a name is read as a space and a carriage return in an owner as a line feed, and no
processor takes an owner with a control character. -/
theorem ownedFolder_not_recovered :
    Service.folderGraph.check = .ok () ∧
    Compile.program Service.folderGraph Service.putFolder = .ok Compile.folderProgram ∧
    Compile.folderProgram.Named ∧ needsDocument Compile.folderProgram = true ∧
    (∃ forest forest' text,
      Compile.folderProgram.run (some (ownedFolder "a\tb" "x\ry")) = .ok (.document forest) ∧
      Compile.folderProgram.serialize false (some (ownedFolder "a\tb" "x\ry")) = .ok text.toUTF8 ∧
      process text = some forest' ∧ forest' ≠ forest) ∧
    ∃ text,
      Compile.folderProgram.serialize false (some (ownedFolder "" "\x01")) = .ok text.toUTF8 ∧
      ¬ Legal text := by
  refine ⟨(Service.Graph.load_eq_ok_iff.1 Service.load_folderDescription).2,
    Compile.program_putFolder, named_folderProgram, rfl, ?lineEnds, ?control⟩
  case lineEnds =>
    refine ⟨[.element "Root" [("xmlns", "urn:folders"), ("id", "a\tb")]
        [.element "Owner" [] [.text "x\ry"]]],
      [.element "Root" [("xmlns", "urn:folders"), ("id", "a b")]
        [.element "Owner" [] [.text "x\ny"]]],
      "<Root xmlns=\"urn:folders\" id=\"a\tb\"><Owner>x\ry</Owner></Root>", by cbv, by cbv, ?_,
      by simp⟩
    have nodes : read (endLines "<Root xmlns=\"urn:folders\" id=\"a\tb\"><Owner>x\ry</Owner></Root>") =
        some [.element "Root" [("xmlns", "urn:folders"), ("id", "a\tb")]
          [.element "Owner" [] [.text "x\ny"]]] := by rfl
    rw [process, if_pos (by decide), nodes]
    rfl
  case control =>
    exact ⟨"<Root xmlns=\"urn:folders\" id=\"\"><Owner>\x01</Owner></Root>", by cbv, by decide⟩

end WireBody.Run
