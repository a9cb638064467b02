import Mathlib.Data.List.Forall2
import WireBody.Command.Session

/-!
# What the environment of a call sets

Variables set what is logged, the protocol of services that declare none, and whether documents are
declared as such.  It is said here of the variables themselves when logging is set up, which protocol
a service speaks, and when documents are declared.

Main statements: `settings_of_logsByFilter`, `xmlDeclaration_iff` and `checkProtocol_eq_ok_iff`.
-/

set_option autoImplicit false

namespace WireBody.Command

open WireBody.Service
open WireBody.Settings

variable {environment : Environment}

/-! ## Logging -/

/-- What is logged is set by a filter.  A variable that goes before the log level is one in any
case. -/
def LogsByFilter (lib : Libraries) (environment : Environment) : Prop :=
  environment "RUST_LOG" = none →
    lib.checkFilter ((environment "LOG_LEVEL").getD "info") = .ok ()

theorem settings_of_logsByFilter {lib : Libraries} (filter : LogsByFilter lib environment) :
    settings lib environment = .ok (Config.ofEnvironment environment) := by
  unfold settings
  cases first : environment "RUST_LOG" with
  | some _ => rfl
  | none =>
    have level : lib.checkFilter (Config.ofEnvironment environment).logLevel = .ok () :=
      filter first
    simp [level]

/-! ## Declarations -/

/-- Letter by letter a text is the one in lower case or has its capital. -/
def IsCaseVariant (s lower : String) : Prop :=
  List.Forall₂ (fun c d => c = d ∨ c = d.toUpper) s.toList lower.toList

/-- Documents are declared: the variable is not set, or it is `1`, or `true` in any case. -/
def DeclaresDocuments (environment : Environment) : Prop :=
  ∀ s, environment "AWSGEN_XML_DECLARATION" = some s → s = "1" ∨ IsCaseVariant s "true"

theorem toNat_toLower (c : Char) :
    c.toLower.val.toNat =
      if 65 ≤ c.val.toNat ∧ c.val.toNat ≤ 90 then c.val.toNat + 32 else c.val.toNat := by
  have shift : ('a'.val - 'A'.val).toNat = 32 := by decide
  have capital : 'A'.val ≤ c.val ∧ c.val ≤ 'Z'.val ↔ 65 ≤ c.val.toNat ∧ c.val.toNat ≤ 90 :=
    and_congr UInt32.le_iff_toNat_le UInt32.le_iff_toNat_le
  unfold Char.toLower
  split
  · rename_i upper
    rw [if_pos (capital.1 upper), UInt32.toNat_add, shift]
    have := capital.1 upper
    omega
  · rename_i other
    rw [if_neg (fun upper => other (capital.2 upper))]

theorem toNat_toUpper {d : Char} (lower : 97 ≤ d.val.toNat ∧ d.val.toNat ≤ 122) :
    d.toUpper.val.toNat = d.val.toNat - 32 := by
  have shift : ('A'.val - 'a'.val).toNat = 4294967264 := by decide
  have small : 'a'.val ≤ d.val ∧ d.val ≤ 'z'.val :=
    ⟨UInt32.le_iff_toNat_le.2 lower.1, UInt32.le_iff_toNat_le.2 lower.2⟩
  unfold Char.toUpper
  rw [dif_pos small, UInt32.toNat_add, shift]
  omega

/-- What becomes a small letter is that letter or its capital. -/
theorem toLower_eq_iff {c d : Char} (lower : 97 ≤ d.val.toNat ∧ d.val.toNat ≤ 122) :
    c.toLower = d ↔ c = d ∨ c = d.toUpper := by
  have upper := toNat_toUpper lower
  have low := toNat_toLower c
  simp only [Char.ext_iff, ← UInt32.toNat_inj, upper, low]
  split <;> omega

theorem map_toLower_eq_iff {s t : List Char}
    (lower : ∀ d ∈ t, 97 ≤ d.val.toNat ∧ d.val.toNat ≤ 122) :
    s.map Char.toLower = t ↔ List.Forall₂ (fun c d => c = d ∨ c = d.toUpper) s t := by
  induction t generalizing s with
  | nil => rw [List.map_eq_nil_iff, List.forall₂_nil_right_iff]
  | cons d t ih =>
    obtain ⟨first, others⟩ := List.forall_mem_cons.1 lower
    cases s with
    | nil => simp
    | cons c s =>
      rw [List.map_cons, List.cons.injEq, List.forall₂_cons, toLower_eq_iff first, ih others]

theorem isOn_iff {s : String} : Config.isOn s = true ↔ s = "1" ∨ IsCaseVariant s "true" := by
  have folded : s.toLower = s.map Char.toLower := rfl
  have letters : "true".toList = ['t', 'r', 'u', 'e'] := rfl
  have small : ∀ d ∈ ['t', 'r', 'u', 'e'], 97 ≤ d.val.toNat ∧ d.val.toNat ≤ 122 := by simp
  have lowered : s.toLower = "true" ↔ IsCaseVariant s "true" := by
    rw [folded, ← String.toList_inj, String.toList_map, IsCaseVariant, letters]
    exact map_toLower_eq_iff small
  rw [Config.isOn, Bool.or_eq_true, decide_eq_true_eq, decide_eq_true_eq, lowered]

theorem xmlDeclaration_iff :
    (Config.ofEnvironment environment).xmlDeclaration = true ↔ DeclaresDocuments environment := by
  rw [Config.ofEnvironment, DeclaresDocuments]
  cases environment "AWSGEN_XML_DECLARATION" with
  | none => simp [Config.default]
  | some s => simp [isOn_iff]

/-! ## Protocols -/

/-- The name of the protocol that a service speaks: the one that it declares, or else the one in the
environment, if there is a protocol of this name, or else that with XML bodies. -/
def protocolName (environment : Environment) (g : Graph) : String :=
  if g.metadata.protocol ≠ "" then g.metadata.protocol
  else
    match environment "AWSGEN_PROTOCOL" with
    | some name => if name ∈ Protocol.all.map Protocol.name then name else "rest-xml"
    | none => "rest-xml"

theorem ofName?_eq_some_iff {name : String} {p : Protocol} :
    Protocol.ofName? name = some p ↔ p.name = name := by
  constructor
  · intro found
    simpa using List.find?_some found
  · rintro rfl
    exact Protocol.ofName?_name p

theorem ofName?_eq_none_iff {name : String} :
    Protocol.ofName? name = none ↔ name ∉ Protocol.all.map Protocol.name := by
  rw [Protocol.ofName?, List.find?_eq_none]
  simp

theorem ofName_eq_ok_iff {name : String} {p : Protocol} :
    Protocol.ofName name = .ok p ↔ p.name = name := by
  rw [← ofName?_eq_some_iff, Protocol.ofName]
  cases Protocol.ofName? name <;> simp

/-- The protocol of services that declare none has the name that the environment gives. -/
theorem name_of_fallback {g : Graph} (undeclared : g.metadata.protocol = "") :
    (Config.ofEnvironment environment).protocol.name = protocolName environment g := by
  rw [protocolName, if_neg (by simpa using undeclared), Config.ofEnvironment]
  cases environment "AWSGEN_PROTOCOL" with
  | none => rfl
  | some name =>
    dsimp only
    cases known : Protocol.ofName? name with
    | none =>
      rw [if_neg (ofName?_eq_none_iff.1 known), Option.bind_some, known]
      rfl
    | some p =>
      have listed : name ∈ Protocol.all.map Protocol.name := by
        by_contra unknown
        rw [ofName?_eq_none_iff.2 unknown] at known
        cases known
      rw [if_pos listed, Option.bind_some, known]
      exact ofName?_eq_some_iff.1 known

/-- A service can be served exactly if it speaks the protocol with XML bodies. -/
theorem checkProtocol_eq_ok_iff {g : Graph} :
    checkProtocol (Config.ofEnvironment environment) g = .ok () ↔
      protocolName environment g = "rest-xml" := by
  have served : checkProtocol (Config.ofEnvironment environment) g = .ok () ↔
      Protocol.ofGraph g (Config.ofEnvironment environment).protocol = .ok .restXml := by
    unfold checkProtocol
    split <;> simp_all
  have named {p : Protocol} : p = .restXml ↔ p.name = "rest-xml" := by
    cases p <;> decide
  rw [served, Protocol.ofGraph]
  by_cases undeclared : g.metadata.protocol = ""
  · rw [if_pos (String.isEmpty_iff.2 undeclared), Except.ok.injEq, named,
      name_of_fallback undeclared]
  · have declared : protocolName environment g = g.metadata.protocol := if_pos undeclared
    rw [if_neg (fun empty => undeclared (String.isEmpty_iff.1 empty)), ofName_eq_ok_iff, declared]
    exact eq_comm

end WireBody.Command
