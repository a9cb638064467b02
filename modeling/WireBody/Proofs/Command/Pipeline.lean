import Mathlib
import WireBody.Proofs.Command.Arguments
import WireBody.Proofs.Command.Steps
import WireBody.Proofs.Json.Printed
import WireBody.Proofs.Service.Texts

/-!
# A call does what its steps do

`serialize` ends well exactly if every step that it consists of succeeds, and prints the body that
they give.  No call that fails prints anything, whatever it failed at and whatever it was for.

Main statement: `call_eq_library`.
-/

set_option autoImplicit false

namespace WireBody.Command

open WireBody.Request
open WireBody.Service

/-! ## Bodies -/

/-- A call ends well exactly if there is a body, and prints it then. -/
structure PrintsBody (outcome : Outcome) (files : Files) (environment : Environment)
    (model operation : String) (input : Option String) (wanted : Bool) : Prop where
  code : outcome.code = 0 ↔
    ∃ content, HasBody files environment model operation input wanted content
  output : ∀ content, HasBody files environment model operation input wanted content →
    outcome.output = content

variable {lib : Libraries} {files : Files} {environment : Environment}

theorem printsBody_of_asked (filter : LogsByFilter lib environment) {arguments : List String}
    {model operation : String} {input : Option String} {wanted : Bool}
    (asked : lib.parse arguments = .asked (.serialize model operation input wanted)) :
    PrintsBody (call lib files environment arguments) files environment model operation input
      wanted := by
  have acts : act lib files environment arguments = _ := act_of_asked filter asked
  constructor
  · rw [code_eq_zero_iff, acts]
    simp only [respond_serialize_eq_ok_iff]
    constructor
    · rintro ⟨output, content, body, -⟩
      exact ⟨content, body⟩
    · rintro ⟨content, body⟩
      exact ⟨_, content, body, rfl⟩
  · intro content body
    have done : (act lib files environment arguments).after .empty = (.ok (), .empty ++ content) := by
      rw [acts]
      exact respond_serialize_eq_ok_iff.2 ⟨content, body, rfl⟩
    rw [call_of_ok done, ByteArray.empty_append]

/-- A call that does not end well prints nothing.  Asking for a body, in whatever order the
arguments spell a description, an operation and options, ends well exactly if the description, the
protocol, the program, the request and the run give one, which is printed; and so does every call
that is understood so. -/
theorem call_eq_library (understood : Understands lib.parse)
    (filter : LogsByFilter lib environment) (files : Files) :
    (∀ arguments, (call lib files environment arguments).code ≠ 0 →
      (call lib files environment arguments).output = .empty) ∧
    (∀ {arguments model operation input off},
      Spells arguments [model, operation] input off → model ≠ "" →
      PrintsBody (call lib files environment ("serialize" :: arguments)) files environment model
        operation input (!off)) ∧
    ∀ {arguments model operation input wanted},
      lib.parse arguments = .asked (.serialize model operation input wanted) →
      PrintsBody (call lib files environment arguments) files environment model operation input
        wanted := by
  refine ⟨fun arguments failed => output_of_code_ne_zero failed, ?_, ?_⟩
  · intro arguments model operation input off spelled named
    exact printsBody_of_asked filter (understood.serialize spelled named)
  · intro arguments model operation input wanted asked
    exact printsBody_of_asked filter asked

/-! ## Notes

A service to look at calls with.  A note is a line of text, which has to be there; a letter is sent
as it is; nothing is said to ping; and counts have no form in a body. -/

/-- A structure of one member, as a document. -/
def structureOf (member target : String) (more : List (String × Json)) : Json :=
  .object (("type", .string "structure") ::
    ("members", .object [(member, .object [("shape", .string target)])]) :: more)

/-- An operation with an input, as a document. -/
def operationOn (input : String) : Json := .object [("input", .object [("shape", .string input)])]

/-- The description of the service. -/
def noteDocument : Json :=
  .object [
    ("operations", .object [("Bump", operationOn "Tally"), ("Mail", operationOn "Letter"),
      ("Ping", .object []), ("Put", operationOn "Note")]),
    ("shapes", .object [
      ("Count", .object [("type", .string "integer")]),
      ("Letter", structureOf "Text" "Line" [("payload", .string "Text")]),
      ("Line", .object [("type", .string "string")]),
      ("Note", structureOf "Text" "Line" [("required", .array [.string "Text"])]),
      ("Tally", structureOf "Count" "Count" [])])]

/-- A member of that service. -/
def noteMember (name target : String) (required payload : Bool) : Member :=
  ⟨some name, target, none, .body, required, false, none, payload, false⟩

/-- Its graph. -/
def noteGraph : Graph :=
  Graph.assemble .none
    [⟨"Count", .scalar .integer, none, false⟩,
     ⟨"Letter", .struct ⟨[noteMember "Text" "Line" false true], some "Text"⟩, none, false⟩,
     ⟨"Line", .scalar .string, none, false⟩,
     ⟨"Note", .struct ⟨[noteMember "Text" "Line" true false], none⟩, none, false⟩,
     ⟨"Tally", .struct ⟨[noteMember "Count" "Count" false false], none⟩, none, false⟩]
    [⟨"Bump", some "Tally"⟩, ⟨"Mail", some "Letter"⟩, ⟨"Ping", none⟩, ⟨"Put", some "Note"⟩]

/-- The program that puts a note. -/
def noteProgram : Program :=
  ⟨"Put", .document "Note" none,
    .ofList [("Note", ⟨"Note", [.element "Text" (.field "Text")]⟩)]⟩

/-- The files there are: the description, a note, a note without its text, and a list of notes. -/
def noteFiles : Files := fun path =>
  if path = "service.json" then .ok noteDocument.pretty.toUTF8
  else if path = "note.json" then .ok "\x7b\"Text\":\"a<b\"\x7d".toUTF8
  else if path = "blank.json" then .ok "\x7b\x7d".toUTF8
  else if path = "notes.json" then .ok "[]".toUTF8
  else .error .notFound

/-- No variable is set. -/
def bare : Environment := fun _ => none

/-- Arguments are read without a word of help, and the name of a level sets what is logged. -/
def notes : Libraries where
  parse := parseArguments ⟨fun _ => "", fun _ => ""⟩
  checkFilter level :=
    if level ∈ ["off", "error", "warn", "info", "debug", "trace"] then .ok ()
    else .error ["invalid filter directive"]

theorem logsByFilter_bare : LogsByFilter notes bare := fun _ => rfl

theorem fits_noteDocument : Json.Fits Json.maxNesting noteDocument := by
  have operation (input : String) (room : Nat) : Json.Fits (room + 2) (operationOn input) := by
    refine .object (List.forall_mem_singleton.2 ?_)
    exact .object (List.forall_mem_singleton.2 (.string input))
  have structure_ {member target : String} {more : List (String × Json)} {room : Nat}
      (others : ∀ e ∈ more, Json.Fits (room + 2) e.2) :
      Json.Fits (room + 3) (structureOf member target more) := by
    refine .object (List.forall_mem_cons.2 ⟨.string _, List.forall_mem_cons.2 ⟨?_, others⟩⟩)
    refine .object (List.forall_mem_singleton.2 ?_)
    exact .object (List.forall_mem_singleton.2 (.string target))
  refine .object (List.forall_mem_cons.2 ⟨?_, List.forall_mem_singleton.2 ?_⟩)
  · refine .object ?_
    simp only [List.forall_mem_cons]
    exact ⟨operation _ _, operation _ _, .object nofun, operation _ _, nofun⟩
  · have scalar (type : String) : Json.Fits 125 (.object [("type", .string type)]) :=
      .object (List.forall_mem_singleton.2 (.string type))
    refine .object ?_
    simp only [List.forall_mem_cons]
    refine ⟨scalar _, structure_ ?_, scalar _, structure_ ?_, structure_ nofun, nofun⟩
    · exact List.forall_mem_singleton.2 (.string "Text")
    · refine List.forall_mem_singleton.2 (.array ?_)
      exact List.forall_mem_singleton.2 (.string "Text")

theorem ofText_noteDocument : Graph.ofText noteDocument.pretty = .ok noteGraph := by
  have decoded : Graph.ofJson noteDocument = .ok noteGraph := rfl
  rw [Description.ofText_of_decoded (Json.parse_pretty fits_noteDocument) decoded]
  rfl

theorem serves_notes : Serves noteFiles bare "service.json" noteGraph := by
  constructor
  · exact ⟨noteDocument.pretty, if_pos rfl, ofText_noteDocument⟩
  · rfl

theorem programmed_put : Programmed noteGraph "Put" noteProgram := by
  refine ⟨⟨"Put", some "Note"⟩, rfl, ?_⟩
  cbv

theorem hasBody_note (wanted : Bool) :
    HasBody noteFiles bare "service.json" "Put" (some "note.json") wanted
      ((if wanted then Xml.declaration else "") ++ "<Text>a&lt;b</Text>").toUTF8 := by
  have parsed : Json.parse "\x7b\"Text\":\"a<b\"\x7d" = .ok (.object [("Text", .string "a<b")]) := by
    with_unfolding_all rfl
  refine ⟨noteGraph, noteProgram, some (.struct [("Text", .text "a<b")]), wanted, serves_notes,
    programmed_put, ?_, ?_, ?_, ?_⟩
  · exact .file rfl parsed
  · rintro v ⟨⟩
    rfl
  · simp [DeclaresDocuments, bare]
  · cases wanted
    · cbv
    · cbv

/-- A call for a body that fails behind its description does not end well. -/
theorem code_ne_zero_of_notes {arguments : List String} {operation : String}
    {input : Option String} {f : Failure}
    (asked : notes.parse arguments = .asked (.serialize "service.json" operation input true))
    (failed : (do
      let p ← programOf noteGraph operation
      let request ← readInput noteFiles input
      checkObject p.operation request
      bodyOf (.ofEnvironment bare) p true request) = .error f) :
    (call notes noteFiles bare arguments).code ≠ 0 := by
  intro ended
  obtain ⟨content, g, p, request, declared, served, compiled, given, object, wished, serialized⟩ :=
    (printsBody_of_asked logsByFilter_bare asked).code.1 ended
  cases (openModel_eq_ok_iff.2 served).symm.trans (openModel_eq_ok_iff.2 serves_notes)
  rw [programOf_eq_ok_iff.2 compiled, ok_bind, readInput_eq_ok_iff.2 given, ok_bind,
    checkObject_eq_ok_iff.2 object, ok_bind, bodyOf_eq_ok_iff.2 ⟨declared, wished, serialized⟩]
    at failed
  cases failed

/-- Calls that fail, one without an operation, one for a body that has no form, one whose request is
in no file, one whose request is no object, and one whose request lacks a text. -/
def failingCalls : List (List String) :=
  [["serialize", "service.json"],
   ["serialize", "service.json", "Bump"],
   ["serialize", "service.json", "Put", "--input", "none.json"],
   ["serialize", "service.json", "Put", "--input", "notes.json"],
   ["serialize", "service.json", "Put", "--input", "blank.json"]]

/-- A note is put without a declaration, and no call that fails prints anything. -/
theorem call_eq_library_notes :
    (call notes noteFiles bare
      ["serialize", "service.json", "--no-declaration", "--input", "note.json", "Put"]).output =
        "<Text>a&lt;b</Text>".toUTF8 ∧
    ∀ arguments ∈ failingCalls, (call notes noteFiles bare arguments).code ≠ 0 ∧
      (call notes noteFiles bare arguments).output = .empty := by
  obtain ⟨silent, spells, -⟩ :=
    call_eq_library (understands_parseArguments _) logsByFilter_bare noteFiles
  constructor
  · have operand (a : String) (plain : a.toList.head? ≠ some '-') : IsOperand a := .inr plain
    have spelled : Spells ["service.json", "--no-declaration", "--input", "note.json", "Put"]
        ["service.json", "Put"] (some "note.json") true :=
      .operand (operand _ (by decide)) (.noDeclaration (.input ⟨operand _ (by decide), by decide⟩
        (.operand (operand _ (by decide)) .nil)))
    exact (spells spelled (by decide)).output _ (hasBody_note false)
  · suffices fails : ∀ arguments ∈ failingCalls, (call notes noteFiles bare arguments).code ≠ 0 from
      fun arguments failing => ⟨fails arguments failing, silent arguments (fails arguments failing)⟩
    simp only [failingCalls, List.forall_mem_cons]
    refine ⟨?usage, ?form, ?file, ?object, ?text, nofun⟩
    case usage =>
      have misused : act notes noteFiles bare ["serialize", "service.json"] =
          throw (.misused "") := rfl
      rw [call_of_error (misused ▸ Act.after_throw (.misused ""))]
      exact code_ne_zero (.misused "")
    case form =>
      have asked : notes.parse ["serialize", "service.json", "Bump"] =
          .asked (.serialize "service.json" "Bump" none true) := by decide
      refine code_ne_zero_of_notes asked
        (f := .compile "Bump" (.inMember "Tally" "Count" (.unsupportedType "Count" "integer"))) ?_
      cbv
    case file =>
      have asked : notes.parse ["serialize", "service.json", "Put", "--input", "none.json"] =
          .asked (.serialize "service.json" "Put" (some "none.json") true) := by decide
      refine code_ne_zero_of_notes (f := .unreadableInput "none.json" .notFound) asked ?_
      cbv
    case object =>
      have asked : notes.parse ["serialize", "service.json", "Put", "--input", "notes.json"] =
          .asked (.serialize "service.json" "Put" (some "notes.json") true) := by decide
      refine code_ne_zero_of_notes (f := .notAnObject "Put") asked ?_
      cbv
    case text =>
      have asked : notes.parse ["serialize", "service.json", "Put", "--input", "blank.json"] =
          .asked (.serialize "service.json" "Put" (some "blank.json") true) := by decide
      refine code_ne_zero_of_notes (f := .run "Put" (.missingValue "Text")) asked ?_
      cbv

end WireBody.Command
