import WireBody.Proofs.Command.Pipeline
import WireBody.Proofs.Direct.PayloadRoot
import WireBody.Proofs.Run.Elements
import WireBody.Proofs.Run.Written
import WireBody.Proofs.Service.Sound
import WireBody.Proofs.Text.ByteOrder

/-!
# What the listing of a service says

The listing has a line for each operation, with the kind of its bodies.  The kind is worked out
without any request and says what becomes of all of them: which bodies are empty, which are the
bytes of a field, which are elements, and that there is none where the operation has no program.

Main statement: `listing_predicts`.
-/

set_option autoImplicit false

namespace WireBody.Command

open WireBody.Direct
open WireBody.Program
open WireBody.Request
open WireBody.Run
open WireBody.Service

/-! ## Kinds of bodies -/

/-- The kinds of bodies that a listing tells apart. -/
inductive BodyKind where
  /-- There is no program, for this reason. -/
  | error (message : String)
  | empty
  | raw (field : String)
  | xml (root : String)

/-- A kind as it is listed. -/
def BodyKind.text : BodyKind → String
  | .error message => "error: " ++ message
  | .empty => "empty"
  | .raw field => "raw (" ++ field ++ ")"
  | .xml root => "xml (" ++ root ++ ")"

/-- The two letters that a kind starts with. -/
def BodyKind.letters : BodyKind → List Char
  | .error _ => ['e', 'r']
  | .empty => ['e', 'm']
  | .raw _ => ['r', 'a']
  | .xml _ => ['x', 'm']

theorem BodyKind.take_text (kind : BodyKind) : kind.text.toList.take 2 = kind.letters := by
  cases kind with
  | error message => rw [text, String.toList_append]; rfl
  | empty => rfl
  | raw field => rw [text, String.toList_append, String.toList_append]; rfl
  | xml root => rw [text, String.toList_append, String.toList_append]; rfl

/-- What is listed tells the kind. -/
theorem BodyKind.text_injective {a b : BodyKind} (same : a.text = b.text) : a = b := by
  have letters : a.letters = b.letters := by rw [← take_text a, ← take_text b, same]
  cases a with
  | error message =>
    cases b with
    | error message' => simpa [text] using same
    | _ => cases letters
  | empty =>
    cases b with
    | empty => rfl
    | _ => cases letters
  | raw field =>
    cases b with
    | raw field' => simpa [text] using same
    | _ => cases letters
  | xml root =>
    cases b with
    | xml root' => simpa [text] using same
    | _ => cases letters

/-- The kind of an operation's bodies. -/
def kindOf (g : Graph) (o : Operation) : BodyKind :=
  match Compile.program g o with
  | .error e => .error e.message
  | .ok p =>
    match p.plan with
    | .empty => .empty
    | .raw field => .raw field
    | .document root _ => .xml root

theorem bodyKind_eq_text (g : Graph) (o : Operation) : bodyKind g o = (kindOf g o).text := by
  unfold bodyKind kindOf
  cases Compile.program g o with
  | error e => rfl
  | ok p =>
    obtain ⟨operation, plan, routines⟩ := p
    cases plan <;> rfl

/-! ## What a kind foretells -/

variable {lib : Libraries} {files : Files} {environment : Environment} {model : String} {g : Graph}

/-- Asking for the program of an operation, or for one of its bodies, fails for this reason, and
nothing else is reported. -/
def FailsToCompile (lib : Libraries) (files : Files) (environment : Environment)
    (model name : String) (e : Compile.CompileError) : Prop :=
  ∀ arguments,
    (lib.parse arguments = .asked (.compile model name) ∨
      ∃ input wanted, lib.parse arguments = .asked (.serialize model name input wanted)) →
    call lib files environment arguments = ⟨1, .empty, (Failure.compile name e).report⟩

/-- The input of an operation is a structure with these members. -/
def Takes (g : Graph) (name input : String) (f : Fields) : Prop :=
  ∃ o, g.operations.get? name = some o ∧ InputIs g o input f

/-- What the kind of an operation's bodies says of every request. -/
def Foretells (lib : Libraries) (files : Files) (environment : Environment) (model : String)
    (g : Graph) (name : String) : BodyKind → Prop
  -- No body is worked out.
  | .error message => ∃ e, e.message = message ∧ FailsToCompile lib files environment model name e
  -- Every request has an empty body.
  | .empty =>
    ∃ p, Programmed g name p ∧
      ∀ declared request fields, request.getD (.struct []) = .struct fields →
        p.serialize declared request = .ok .empty
  -- The body is the bytes of the field that the input declares to be its payload.
  | .raw field =>
    ∃ p input f, Programmed g name p ∧ Takes g name input f ∧ f.payload = some field ∧
      ∀ declared request fields content, request.getD (.struct []) = .struct fields →
        (p.serialize declared request = .ok content ↔
          fields.lookup field = none ∧ content = .empty ∨
          fields.lookup field = some (.blob content) ∨
          ∃ s, fields.lookup field = some (.text s) ∧ content = s.toUTF8)
  -- The body is elements, those of the payload if one is declared and else those of the input.
  | .xml root =>
    ∃ p input f, Programmed g name p ∧ Takes g name input f ∧
      (f.payload = none ∧ root = input ∨
        ∃ field s f', PayloadIs g f field root ∧
          g.shapes.get? root = some s ∧ s.kind = .struct f') ∧
      ∀ declared request content, p.serialize declared request = .ok content →
        content = .empty ∨
        ∃ forest, forest ≠ [] ∧ (∀ n ∈ forest, n.IsElement) ∧
          content = (Xml.writeDocument declared forest).toUTF8

/-- A graph that is served was checked. -/
theorem checked_of_serves (served : Serves files environment model g) : g.check = .ok () := by
  obtain ⟨text, -, taken⟩ := served.described
  obtain ⟨j, -, loaded⟩ := Graph.ofText_eq_ok_iff.1 taken
  exact (Graph.load_eq_ok_iff.1 loaded).2

/-! ## Bodies of each kind -/

section

variable {o : Operation} {p : Program} {request : Option Value}

/-- An empty plan gives empty bodies. -/
theorem serialize_of_empty (plan : p.plan = .empty) {fields : List (String × Value)}
    (given : request.getD (.struct []) = .struct fields) (declared : Bool) :
    p.serialize declared request = .ok .empty := by
  rw [Program.serialize, Program.run, requestFields_eq_ok_iff.2 given, ok_bind, plan]
  rfl

/-- A raw plan gives the bytes of its field. -/
theorem serialize_of_raw {field : String} (plan : p.plan = .raw field)
    {fields : List (String × Value)} (given : request.getD (.struct []) = .struct fields)
    (declared : Bool) (content : ByteArray) :
    p.serialize declared request = .ok content ↔
      fields.lookup field = none ∧ content = .empty ∨
      fields.lookup field = some (.blob content) ∨
      ∃ s, fields.lookup field = some (.text s) ∧ content = s.toUTF8 := by
  rw [← @rawBytes_eq_ok_iff field _ content, Program.serialize, Program.run,
    requestFields_eq_ok_iff.2 given, ok_bind, plan]
  dsimp only
  cases rawBytes field (fields.lookup field) with
  | error e => simp [Except.map]
  | ok bytes => rfl

/-- A document plan gives nothing, or elements. -/
theorem serialize_of_document {root : String} {payload : Option String}
    (plan : p.plan = .document root payload) {declared : Bool} {content : ByteArray}
    (serialized : p.serialize declared request = .ok content) :
    content = .empty ∨
      ∃ forest, forest ≠ [] ∧ (∀ n ∈ forest, n.IsElement) ∧
        content = (Xml.writeDocument declared forest).toUTF8 := by
  obtain ⟨body, ran, rfl⟩ := map_eq_ok_iff.1 serialized
  obtain ⟨forest, rfl⟩ := document_of_run (by rw [needsDocument, plan]) ran
  by_cases nothing : forest = []
  · subst nothing
    exact .inl rfl
  · exact .inr ⟨forest, nothing, elements_of_run ran, rfl⟩

/-- A program that there is gives bodies as its plan foretells. -/
theorem foretells_of_program (checked : g.check = .ok ()) {name : String}
    (found : g.operations.get? name = some o) (compiled : Compile.program g o = .ok p) :
    Foretells lib files environment model g name (kindOf g o) := by
  have programmed : Programmed g name p := ⟨o, Graph.operation_eq_ok_iff.2 found, compiled⟩
  have empty (plan : p.plan = .empty) :
      Foretells lib files environment model g name (kindOf g o) := by
    simp only [kindOf, compiled, plan]
    exact ⟨p, programmed, fun declared request fields given =>
      serialize_of_empty plan given declared⟩
  cases Compile.programOf_of_program compiled with
  | noInput _ => exact empty rfl
  | @raw input s f m given stored isStruct declared _ =>
    obtain ⟨field, named, member⟩ := Option.bind_eq_some_iff.1 declared
    have takes : Takes g name input f := ⟨o, found, given, s, stored, isStruct⟩
    simp only [kindOf, compiled, Compile.rawProgram]
    refine ⟨_, input, f, programmed, takes, (label_of_member? member).symm ▸ named, ?_⟩
    intro declared request fields content given
    exact serialize_of_raw rfl given declared content
  | @input input s f _ given stored isStruct undeclared made =>
    have takes : Takes g name input f := ⟨o, found, given, s, stored, isStruct⟩
    have own : f.payload = none := by
      by_contra some
      have declared := (Graph.sound_of_check checked).payload stored isStruct
        (Option.isSome_iff_ne_none.2 some)
      rw [undeclared] at declared
      obtain ⟨m, member⟩ := declared
      cases member
    cases made with
    | nothing _ => exact empty rfl
    | document _ _ _ _ _ =>
      simp only [kindOf, compiled]
      refine ⟨_, input, f, programmed, takes, .inl ⟨own, rfl⟩, ?_⟩
      intro declared request content serialized
      exact serialize_of_document rfl serialized
  | @payload input s t f f' m _ given stored isStruct declared streaming target whole
      isStruct' made =>
    obtain ⟨field, named, member⟩ := Option.bind_eq_some_iff.1 declared
    have takes : Takes g name input f := ⟨o, found, given, s, stored, isStruct⟩
    have kept : g.isStreaming m = .ok false := by
      rw [Graph.isStreaming, streaming, Graph.shape_eq_ok_iff.2 target]
      simp [Except.map, whole]
    have payload : PayloadIs g f field t.name :=
      ⟨m, named, member, (g.shape_named target).symm, kept⟩
    cases made with
    | nothing _ => exact empty rfl
    | document _ _ _ _ _ =>
      simp only [kindOf, compiled]
      refine ⟨_, input, f, programmed, takes,
        .inr ⟨field, t, f', payload, (g.shape_named target).symm ▸ target, isStruct'⟩, ?_⟩
      intro declared request content serialized
      exact serialize_of_document rfl serialized

end

/-! ## Operations without a program -/

section

variable {o : Operation} {name : String} {e : Compile.CompileError}

/-- Where there is no program, no call for it or for a body gets further. -/
theorem failsToCompile_of_program (filter : LogsByFilter lib environment)
    (served : Serves files environment model g) (found : g.operations.get? name = some o)
    (failed : Compile.program g o = .error e) :
    FailsToCompile lib files environment model name e := by
  have opened := openModel_eq_ok_iff.2 served
  have stopped : programOf g name = .error (.compile name e) := by
    rw [programOf, Graph.operation_eq_ok_iff.2 found]
    simp only [failed, g.operation_named found]
    rfl
  -- Both start by opening the description and compiling the operation.
  have stops {α : Type} {next : Program → Act α} :
      ((liftM (openModel (.ofEnvironment environment) files model) : Act Graph) >>= fun g' =>
        (liftM (programOf g' name) : Act Program) >>= next).after .empty =
          (.error (.compile name e), .empty) := by
    rw [Act.after_bind, Act.after_step, opened]
    dsimp only
    rw [Act.after_bind, Act.after_step, stopped]
  rintro arguments (asked | ⟨input, wanted, asked⟩)
  · have failed : (act lib files environment arguments).after .empty =
        (.error (.compile name e), .empty) := by
      rw [act_of_asked filter asked]
      exact stops
    exact call_of_error failed
  · have failed : (act lib files environment arguments).after .empty =
        (.error (.compile name e), .empty) := by
      rw [act_of_asked filter asked]
      exact stops
    exact call_of_error failed

/-- Where there is a program it can be asked for. -/
theorem not_failsToCompile (understood : Understands lib.parse)
    (filter : LogsByFilter lib environment) (served : Serves files environment model g)
    (full : model ≠ "") (found : g.operations.get? name = some o) {p : Program}
    (compiled : Compile.program g o = .ok p) :
    ¬ FailsToCompile lib files environment model name e := by
  intro fails
  have programmed : Programmed g name p := ⟨o, Graph.operation_eq_ok_iff.2 found, compiled⟩
  have asked := understood.compile full name
  have done : (act lib files environment ["compile", "--", model, name]).after .empty =
      (.ok (), .empty ++ (p.toJson.pretty ++ "\n").toUTF8) := by
    rw [act_of_asked filter asked, respond, Act.after_step_bind_eq_ok_iff]
    refine ⟨g, openModel_eq_ok_iff.2 served, ?_⟩
    rw [Act.after_step_bind_eq_ok_iff]
    exact ⟨p, programOf_eq_ok_iff.2 programmed, rfl⟩
  have ended := fails _ (.inl asked)
  rw [call_of_ok done] at ended
  have codes : (0 : UInt32) = 1 := congrArg Outcome.code ended
  exact absurd codes (by decide)

end

/-! ## Listings -/

/-- The line of an entry. -/
def entryLine (entry : String × String) : String := entry.1 ++ "\t" ++ entry.2 ++ "\n"

/-- The operations and the kinds of their bodies. -/
def entriesOf (g : Graph) : List (String × String) :=
  g.operations.entries.map fun e => (e.1, bodyKind g e.2)

theorem lines_eq (g : Graph) :
    g.operations.values.map (operationLine g) = (entriesOf g).map entryLine := by
  rw [NameMap.values, entriesOf, List.map_map, List.map_map]
  refine List.map_congr_left fun e listed => ?_
  have named := g.operation_named (NameMap.get?_eq_some_iff.2 listed)
  simp only [Function.comp_apply, operationLine, entryLine, named]

/-- A listing is printed line by line. -/
theorem after_printListing (g : Graph) (printed : ByteArray) :
    (printListing g).after printed =
      (.ok (), printed ++ (String.join ((entriesOf g).map entryLine)).toUTF8) := by
  have lines (l : List Operation) (printed : ByteArray) :
      Act.after (l.forM fun o => Act.print (operationLine g o).toUTF8) printed =
        (.ok (), printed ++ (String.join (l.map (operationLine g))).toUTF8) := by
    induction l generalizing printed with
    | nil => exact congrArg (Prod.mk _) ByteArray.append_empty.symm
    | cons o rest ih =>
      change (Act.print (operationLine g o).toUTF8 >>= fun _ =>
        rest.forM fun o => Act.print (operationLine g o).toUTF8).after printed = _
      rw [Act.after_bind, Act.after_print]
      dsimp only
      rw [ih, List.map_cons, String.join_cons, ByteArray.append_assoc]
      exact congrArg (fun text => (Except.ok (), printed ++ text)) String.toByteArray_append.symm
  rw [printListing, lines, lines_eq]

theorem call_of_asked_listing (filter : LogsByFilter lib environment)
    (served : Serves files environment model g) {arguments : List String}
    (asked : lib.parse arguments = .asked (.operations model)) :
    call lib files environment arguments =
      ⟨0, (String.join ((entriesOf g).map entryLine)).toUTF8, ""⟩ := by
  have done : (act lib files environment arguments).after .empty =
      (.ok (), .empty ++ (String.join ((entriesOf g).map entryLine)).toUTF8) := by
    rw [act_of_asked filter asked, respond, Act.after_step_bind_eq_ok_iff]
    exact ⟨g, openModel_eq_ok_iff.2 served, after_printListing g .empty⟩
  rw [call_of_ok done, ByteArray.empty_append]

theorem names_entriesOf (g : Graph) : (entriesOf g).map (·.1) = g.operations.keys := by
  rw [entriesOf, List.map_map]
  rfl

/-- The listing of a service that can be served has an entry for each operation, in the order of the
bytes of their names.  What an entry says is a kind of bodies, and foretells them; and an operation
for which asking for its program or for a body fails for want of a program is listed as an error. -/
theorem listing_predicts (understood : Understands lib.parse)
    (filter : LogsByFilter lib environment) (served : Serves files environment model g)
    {arguments : List String} (asked : lib.parse arguments = .asked (.operations model)) :
    ∃ entries : List (String × String),
      call lib files environment arguments =
        ⟨0, (String.join (entries.map entryLine)).toUTF8, ""⟩ ∧
      entries.map (·.1) = g.operations.keys ∧
      (entries.map (·.1)).Pairwise (fun m n => Text.bytes m < Text.bytes n) ∧
      ∀ name listed, (name, listed) ∈ entries →
        (∃ kind : BodyKind, listed = kind.text) ∧
        (∀ kind : BodyKind, listed = kind.text →
          Foretells lib files environment model g name kind) ∧
        ∀ e, FailsToCompile lib files environment model name e →
          ∃ message, listed = (BodyKind.error message).text := by
  refine ⟨entriesOf g, call_of_asked_listing filter served asked, names_entriesOf g, ?_, ?_⟩
  · rw [names_entriesOf, NameMap.keys, List.pairwise_map]
    exact g.operations.ordered.imp Text.lt_iff_bytes_lt.1
  · intro name listed member
    obtain ⟨⟨_, o⟩, stored, same⟩ := List.mem_map.1 member
    cases same
    have found := NameMap.get?_eq_some_iff.2 stored
    rw [bodyKind_eq_text]
    refine ⟨⟨kindOf g o, rfl⟩, ?_, ?_⟩
    · intro kind same
      rw [← BodyKind.text_injective same]
      cases compiled : Compile.program g o with
      | error e =>
        simp only [kindOf, compiled]
        exact ⟨e, rfl, failsToCompile_of_program filter served found compiled⟩
      | ok p => exact foretells_of_program (checked_of_serves served) found compiled
    · intro e fails
      cases compiled : Compile.program g o with
      | error e' => exact ⟨e'.message, by simp only [kindOf, compiled]⟩
      | ok p =>
        have full := understood.named asked
        exact absurd fails (not_failsToCompile understood filter served full found compiled)

/-- The four operations of the service of notes are listed as one of each kind. -/
theorem listing_predicts_notes :
    ∃ entries : List (String × String),
      call notes noteFiles bare ["operations", "service.json"] =
        ⟨0, (String.join (entries.map entryLine)).toUTF8, ""⟩ ∧
      entries.map (·.1) = ["Bump", "Mail", "Ping", "Put"] ∧
      ∀ name listed, (name, listed) ∈ entries → ∃ kind : BodyKind,
        listed = kind.text ∧ Foretells notes noteFiles bare "service.json" noteGraph name kind := by
  have asked : notes.parse ["operations", "service.json"] =
      .asked (.operations "service.json") := by decide
  obtain ⟨entries, printed, names, -, foretold⟩ :=
    listing_predicts (understands_parseArguments _) logsByFilter_bare serves_notes asked
  have keys : noteGraph.operations.keys = ["Bump", "Mail", "Ping", "Put"] := by cbv
  refine ⟨entries, printed, names.trans keys, ?_⟩
  intro name listed member
  obtain ⟨⟨kind, same⟩, foretells, -⟩ := foretold name listed member
  exact ⟨kind, same, foretells kind same⟩

example : noteGraph.operations.values.map (kindOf noteGraph) =
    [.error "Tally.Count: type integer is not yet implemented (shape `Count`)", .raw "Text",
      .empty, .xml "Note"] := by
  have bump : Compile.program noteGraph ⟨"Bump", some "Tally"⟩ =
      .error (.inMember "Tally" "Count" (.unsupportedType "Count" "integer")) := by cbv
  have put : Compile.program noteGraph ⟨"Put", some "Note"⟩ = .ok noteProgram := by cbv
  have operations : noteGraph.operations.values =
      [⟨"Bump", some "Tally"⟩, ⟨"Mail", some "Letter"⟩, ⟨"Ping", none⟩, ⟨"Put", some "Note"⟩] := rfl
  simp only [operations, List.map_cons, kindOf, bump, put]
  rfl

end WireBody.Command
