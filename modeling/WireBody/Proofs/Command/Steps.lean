import WireBody.Proofs.Command.Acts
import WireBody.Proofs.Command.Environment
import WireBody.Proofs.Run.Pieces

/-!
# When the steps of a call succeed

A call reads a description and perhaps a request, and works out a program.  For each of these steps
it is said here, in the terms of files and graphs, exactly when it succeeds and with what; and what
becomes of a call then.

Main statements: `openModel_eq_ok_iff`, `respond_serialize_eq_ok_iff` and `output_of_code_ne_zero`.
-/

set_option autoImplicit false

namespace WireBody.Command

open WireBody.Request
open WireBody.Run
open WireBody.Service
open WireBody.Settings

variable {files : Files} {environment : Environment}

/-! ## Files -/

/-- The text of a file is the one whose bytes the file holds. -/
theorem readText_eq_ok_iff {path text : String} :
    readText files path = .ok text ↔ files path = .ok text.toUTF8 := by
  unfold readText
  cases files path with
  | error e => simp
  | ok content =>
    dsimp only
    rw [Except.ok.injEq, ← fromUTF8?_eq_some_iff]
    cases String.fromUTF8? content <;> simp

/-- The file holds the description of the graph. -/
def Describes (files : Files) (path : String) (g : Graph) : Prop :=
  ∃ text, files path = .ok text.toUTF8 ∧ Graph.ofText text = .ok g

theorem loadModel_eq_ok_iff {path : String} {g : Graph} :
    loadModel files path = .ok g ↔ Describes files path g := by
  unfold loadModel
  constructor
  · intro loaded
    split at loaded
    · cases loaded
    · rename_i text read
      exact ⟨text, readText_eq_ok_iff.1 read, mapError_eq_ok_iff.1 loaded⟩
  · rintro ⟨text, read, loaded⟩
    rw [readText_eq_ok_iff.2 read]
    exact mapError_eq_ok_iff.2 loaded

/-- The request that a file gives; without a file there is none. -/
inductive RequestIn (files : Files) : Option String → Option Value → Prop
  | none : RequestIn files none none
  | file {path text : String} {j : Json} :
      files path = .ok text.toUTF8 → Json.parse text = .ok j →
      RequestIn files (some path) (Value.ofJson j)

theorem readInput_eq_ok_iff {input : Option String} {request : Option Value} :
    readInput files input = .ok request ↔ RequestIn files input request := by
  constructor
  · intro given
    cases input with
    | none =>
      cases given
      exact .none
    | some path =>
      rw [readInput] at given
      split at given
      · cases given
      · rename_i text read
        obtain ⟨j, parsed, rfl⟩ := map_eq_ok_iff.1 (mapError_eq_ok_iff.1 given)
        exact .file (readText_eq_ok_iff.1 read) parsed
  · intro given
    cases given with
    | none => rfl
    | @file path text j read parsed =>
      have request : Value.ofText text = .ok (Value.ofJson j) := by
        rw [Value.ofText.eq_1, parsed]
        rfl
      rw [readInput, readText_eq_ok_iff.2 read]
      exact mapError_eq_ok_iff.2 request

theorem checkObject_eq_ok_iff {operation : String} {request : Option Value} :
    checkObject operation request = .ok () ↔ ∀ v, request = some v → v.kind = .struct := by
  cases request with
  | none =>
    refine iff_of_true rfl fun v given => ?_
    cases given
  | some v => cases v <;> simp [checkObject, Value.fields?, Value.kind]

/-! ## Graphs and programs -/

/-- The file holds the description of a graph whose service speaks the protocol with XML bodies. -/
structure Serves (files : Files) (environment : Environment) (path : String) (g : Graph) :
    Prop where
  described : Describes files path g
  speaks : protocolName environment g = "rest-xml"

theorem openModel_eq_ok_iff {path : String} {g : Graph} :
    openModel (Config.ofEnvironment environment) files path = .ok g ↔
      Serves files environment path g := by
  unfold openModel
  rw [bind_eq_ok_iff]
  constructor
  · rintro ⟨g', loaded, checked⟩
    obtain ⟨_, served, same⟩ := bind_eq_ok_iff.1 checked
    cases same
    exact ⟨loadModel_eq_ok_iff.1 loaded, checkProtocol_eq_ok_iff.1 served⟩
  · rintro ⟨described, speaks⟩
    refine ⟨g, loadModel_eq_ok_iff.2 described, ?_⟩
    rw [checkProtocol_eq_ok_iff.2 speaks]
    rfl

/-- The graph has the operation, and the operation a program. -/
def Programmed (g : Graph) (operation : String) (p : Program) : Prop :=
  ∃ o, g.operation operation = .ok o ∧ Compile.program g o = .ok p

theorem programOf_eq_ok_iff {g : Graph} {operation : String} {p : Program} :
    programOf g operation = .ok p ↔ Programmed g operation p := by
  unfold programOf Programmed
  cases g.operation operation with
  | error e => simp
  | ok o => simp [mapError_eq_ok_iff]

/-! ## Bodies -/

/-- The library has this body for the request in a file: there is a program for the operation of the
description in another file, the request is a structure or there is none, and serializing it gives
the bytes, declared if the environment and the call have it so. -/
def HasBody (files : Files) (environment : Environment) (model operation : String)
    (input : Option String) (wanted : Bool) (content : ByteArray) : Prop :=
  ∃ g p request declared,
    Serves files environment model g ∧
    Programmed g operation p ∧
    RequestIn files input request ∧
    (∀ v, request = some v → v.kind = .struct) ∧
    (declared = true ↔ DeclaresDocuments environment ∧ wanted = true) ∧
    p.serialize declared request = .ok content

theorem bodyOf_eq_ok_iff {p : Program} {wanted : Bool} {request : Option Value}
    {content : ByteArray} :
    bodyOf (Config.ofEnvironment environment) p wanted request = .ok content ↔
      ∃ declared : Bool, (declared = true ↔ DeclaresDocuments environment ∧ wanted = true) ∧
        p.serialize declared request = .ok content := by
  have declares {declared : Bool} :
      (declared = true ↔ DeclaresDocuments environment ∧ wanted = true) ↔
        declared = ((Config.ofEnvironment environment).xmlDeclaration && wanted) := by
    rw [← xmlDeclaration_iff, ← Bool.and_eq_true]
    exact Bool.eq_iff_iff.symm
  rw [bodyOf, mapError_eq_ok_iff]
  constructor
  · intro serialized
    exact ⟨_, declares.2 rfl, serialized⟩
  · rintro ⟨declared, wished, serialized⟩
    rwa [← declares.1 wished]

/-- Asking for a body succeeds exactly if there is one, which is printed. -/
theorem respond_serialize_eq_ok_iff {model operation : String} {input : Option String}
    {wanted : Bool} {printed output : ByteArray} :
    (respond (Config.ofEnvironment environment) files
        (.serialize model operation input wanted)).after printed = (.ok (), output) ↔
      ∃ content, HasBody files environment model operation input wanted content ∧
        output = printed ++ content := by
  simp only [respond, Act.after_step_bind_eq_ok_iff, openModel_eq_ok_iff, programOf_eq_ok_iff,
    readInput_eq_ok_iff, bodyOf_eq_ok_iff, Act.after_print]
  constructor
  · rintro ⟨g, opened, p, compiled, request, given, _, object, content, ⟨declared, wished,
      serialized⟩, done⟩
    cases done
    exact ⟨content, ⟨g, p, request, declared, opened, compiled, given,
      checkObject_eq_ok_iff.1 object, wished, serialized⟩, rfl⟩
  · rintro ⟨content, ⟨g, p, request, declared, opened, compiled, given, object, wished,
      serialized⟩, rfl⟩
    exact ⟨g, opened, p, compiled, request, given, (), checkObject_eq_ok_iff.2 object, content,
      ⟨declared, wished, serialized⟩, rfl⟩

/-! ## Calls -/

section

variable {lib : Libraries} {arguments : List String} {request : Command.Request}

theorem code_ne_zero (f : Failure) : f.code ≠ 0 := by
  unfold Failure.code
  split <;> decide

/-- Where what is logged is set by a filter, a call does what its request does. -/
theorem act_of_asked (filter : LogsByFilter lib environment)
    (asked : lib.parse arguments = .asked request) :
    act lib files environment arguments =
      respond (Config.ofEnvironment environment) files request := by
  rw [act, asked]
  simp only [settings_of_logsByFilter filter]
  rfl

theorem call_of_ok {output : ByteArray}
    (done : (act lib files environment arguments).after .empty = (.ok (), output)) :
    call lib files environment arguments = ⟨0, output, ""⟩ := by
  rw [call, done]

theorem call_of_error {f : Failure} {output : ByteArray}
    (failed : (act lib files environment arguments).after .empty = (.error f, output)) :
    call lib files environment arguments = ⟨f.code, output, f.report⟩ := by
  rw [call, failed]

/-- A call ends well exactly if it does not fail. -/
theorem code_eq_zero_iff :
    (call lib files environment arguments).code = 0 ↔
      ∃ output, (act lib files environment arguments).after .empty = (.ok (), output) := by
  cases ended : (act lib files environment arguments).after .empty with
  | mk result output =>
    cases result with
    | error f => simp [call_of_error ended, code_ne_zero f]
    | ok _ => simp [call_of_ok ended]

/-- A call that does not end well prints nothing. -/
theorem output_of_code_ne_zero (failed : (call lib files environment arguments).code ≠ 0) :
    (call lib files environment arguments).output = .empty := by
  cases ended : (act lib files environment arguments).after .empty with
  | mk result output =>
    cases result with
    | error f =>
      rw [call_of_error ended]
      exact silent_act lib files environment arguments .empty f output ended
    | ok _ =>
      rw [call_of_ok ended] at failed
      exact absurd rfl failed

end

end WireBody.Command
