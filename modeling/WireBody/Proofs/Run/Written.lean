import Mathlib
import WireBody.Proofs.Entries
import WireBody.Proofs.Run.Steps
import WireBody.Proofs.Compile.Closure
import WireBody.Proofs.Xml.RoundTrip

/-!
# What a run writes can be read

If the tags and attributes of a program have names, then every step writes attributes with names and
proper elements, whatever the values are.  The document of a run therefore reads back as the
elements that the run made.

Main statements: `properContent_of_runOps` is the invariant of a run, and `document_of_serialize`
what it says of the bytes.
-/

set_option autoImplicit false

namespace WireBody

namespace Program

open WireBody.Xml

mutual

/-- Whether the tags and attributes of a step have names. -/
def Op.named : Op → Bool
  | .ifPresent _ body => Op.allNamed body
  | .element tag _ => isName tag
  | .attr name _ => isName name
  | .boolean tag _ => isName tag
  | .struct tag declared _ _ => isName tag && declared.all fun d => isName d.name
  | .forEach wrapper _ body => wrapper.all isName && Op.allNamed body

/-- Whether those of some steps have names. -/
def Op.allNamed : List Op → Bool
  | [] => true
  | op :: rest => op.named && Op.allNamed rest

end

end Program

/-- The tags and attributes of a program have names. -/
def Program.Named (p : Program) : Prop :=
  ∀ r ∈ p.routines.values, Program.Op.allNamed r.ops = true

namespace Run

open WireBody.Program
open WireBody.Request
open WireBody.Xml

/-! ## Content -/

/-- Attributes with names, and proper elements. -/
structure ProperContent (c : Content) : Prop where
  attributes : ∀ a ∈ c.attributes, isName a.1 = true
  children : ∀ n ∈ c.children, Proper n

theorem properContent_empty : ProperContent .empty := by
  constructor
  · exact nofun
  · exact nofun

theorem properContent_append {c d : Content} (hc : ProperContent c) (hd : ProperContent d) :
    ProperContent (c ++ d) := by
  constructor
  · rw [Content.attributes_append]
    exact List.forall_mem_append.2 ⟨hc.attributes, hd.attributes⟩
  · rw [Content.children_append]
    exact List.forall_mem_append.2 ⟨hc.children, hd.children⟩

theorem properContent_child {n : Node} (proper : Proper n) : ProperContent (.child n) := by
  constructor
  · exact nofun
  · exact List.forall_mem_singleton.2 proper

/-- Collecting attributes leaves each of them once. -/
theorem properTag_collect {name : String} {attributes : List (String × String)}
    (named : isName name = true) (attributesNamed : ∀ a ∈ attributes, isName a.1 = true) :
    ProperTag name (collect attributes) := by
  refine ⟨named, fun a member => ?_, nodup_names_collect attributes⟩
  obtain ⟨b, listed, same⟩ := List.mem_map.1
    (mem_names_collect.1 (List.mem_map_of_mem (f := (·.1)) member))
  exact same ▸ attributesNamed b listed

theorem proper_elementOf {tag : String} {declared : Option NamespaceDeclaration} {c : Content}
    (named : isName tag = true) (declaredNamed : declared.all (fun d => isName d.name) = true)
    (content : ProperContent c) : Proper (elementOf tag declared c) := by
  refine .branch (properTag_collect named ?_) content.children
  rw [List.forall_mem_append]
  refine ⟨?_, content.attributes⟩
  cases declared with
  | none => exact nofun
  | some d => simpa using declaredNamed

theorem proper_ofText {tag : String} (named : isName tag = true) (text : String) :
    Proper (.ofText tag text) := by
  have plain : ProperTag tag [] := ⟨named, nofun, List.nodup_nil⟩
  unfold Node.ofText
  split
  · exact .branch plain nofun
  · rename_i some
    exact .leaf plain fun none => some (String.isEmpty_iff.2 none)

/-! ## Steps -/

variable {p : Program}

theorem allNamed_of_routine? (named : p.Named) {shape : String} {r : Routine}
    (own : p.routine? shape = some r) : Op.allNamed r.ops = true :=
  named r (NameMap.mem_values_iff.2 ⟨shape, own⟩)

/-- Whatever the values are, steps with names write proper content. -/
theorem properContent_of_runOps (program : p.Named) {place : Place} {scope : Scope} {ops : List Op}
    {content : Content} (named : Op.allNamed ops = true)
    (written : runOps p place scope ops = .ok content) : ProperContent content := by
  revert content
  revert named
  refine (runOps.mutual_induct p
    (fun place scope ops => Op.allNamed ops = true →
      ∀ {c}, runOps p place scope ops = .ok c → ProperContent c)
    (fun place scope op => op.named = true →
      ∀ {c}, runOp p place scope op = .ok c → ProperContent c)
    (fun place scope body items below => Op.allNamed body = true →
      ∀ {c}, runItems p place scope body items below = .ok c → ProperContent c)
    ?nil ?cons ?absent ?present ?element ?attr ?boolean ?notStruct ?noRoutine ?struct
    ?notList ?wrapped ?flattened ?noItems ?items).1 place scope ops
  case nil =>
    intro place scope _ c written
    rw [runOps_nil] at written
    cases written
    exact properContent_empty
  case cons =>
    intro place scope op rest ihOp ihRest named c written
    rw [Op.allNamed, Bool.and_eq_true] at named
    obtain ⟨first, others, firstWritten, othersWritten, rfl⟩ := runOps_cons_eq_ok_iff.1 written
    exact properContent_append (ihOp named.1 firstWritten) (ihRest named.2 othersWritten)
  case absent =>
    intro place scope field body absent _ c written
    rw [runOp_ifPresent_of_none body absent] at written
    cases written
    exact properContent_empty
  case present =>
    intro place scope field body v found ih named c written
    rw [Op.named] at named
    rw [runOp_ifPresent_of_some body found] at written
    exact ih named written
  case element =>
    intro place scope tag source named c written
    rw [Op.named] at named
    rw [runOp_element] at written
    obtain ⟨v, -, written⟩ := bind_eq_ok_iff.1 written
    obtain ⟨text, -, written⟩ := bind_eq_ok_iff.1 written
    cases written
    exact properContent_child (proper_ofText named text)
  case attr =>
    intro place scope name source named c written
    rw [Op.named] at named
    rw [runOp_attr] at written
    obtain ⟨v, -, written⟩ := bind_eq_ok_iff.1 written
    obtain ⟨text, -, written⟩ := bind_eq_ok_iff.1 written
    cases place with
    | document => cases written
    | element =>
      cases written
      exact ⟨List.forall_mem_singleton.2 named, nofun⟩
  case boolean =>
    intro place scope tag source named c written
    rw [Op.named] at named
    rw [runOp_boolean] at written
    obtain ⟨v, -, written⟩ := bind_eq_ok_iff.1 written
    obtain ⟨text, -, written⟩ := bind_eq_ok_iff.1 written
    cases written
    exact properContent_child (proper_ofText named text)
  case notStruct =>
    intro place scope tag declared shape source e failed _ c written
    rw [runOp_struct_of_error failed] at written
    cases written
  case noRoutine =>
    intro place scope tag declared shape source fields required _ missing _ c written
    rw [runOp_struct_of_missing required missing] at written
    cases written
  case struct =>
    intro place scope tag declared shape source fields required _ r own ih named c written
    rw [Op.named, Bool.and_eq_true] at named
    rw [runOp_struct required own] at written
    obtain ⟨inner, innerWritten, written⟩ := bind_eq_ok_iff.1 written
    cases written
    -- What is called is a routine of the same program, whatever calls it.
    have content := ih (allNamed_of_routine? program own) innerWritten
    exact properContent_child (proper_elementOf named.1 named.2 content)
  case notList =>
    intro place scope wrapper source body e failed _ c written
    rw [runOp_forEach_of_error body failed] at written
    cases written
  case wrapped =>
    intro place scope source body items tag listed ih named c written
    rw [Op.named, Bool.and_eq_true] at named
    rw [runOp_forEach_some body listed] at written
    obtain ⟨inner, innerWritten, written⟩ := bind_eq_ok_iff.1 written
    cases written
    exact properContent_child (proper_elementOf named.1 rfl (ih named.2 innerWritten))
  case flattened =>
    intro place scope source body items listed ih named c written
    rw [Op.named, Bool.and_eq_true] at named
    rw [runOp_forEach_none body listed] at written
    exact ih named.2 written
  case noItems =>
    intro place scope body below _ named c written
    rw [runItems_nil] at written
    cases written
    exact properContent_empty
  case items =>
    intro place scope body v rest below _ ihFirst ihRest named c written
    obtain ⟨first, others, firstWritten, othersWritten, rfl⟩ := runItems_cons_eq_ok_iff.1 written
    exact properContent_append (ihFirst named firstWritten) (ihRest named othersWritten)

/-! ## Documents -/

/-- The elements of the document of a run are proper. -/
theorem proper_of_run (program : p.Named) {request : Option Value} {forest : Forest}
    (ran : p.run request = .ok (.document forest)) : ∀ n ∈ forest, Proper n := by
  rcases routine_of_run ran with rfl | ⟨shape, routine, scope, content, own, written, rfl⟩
  · exact nofun
  · have named := allNamed_of_routine? program own
    exact (properContent_of_runOps program named written).children

/-- A program with a document plan has no other bodies. -/
theorem document_of_run (document : needsDocument p = true) {request : Option Value} {body : Body}
    (ran : p.run request = .ok body) : ∃ forest, body = .document forest := by
  unfold needsDocument at document
  unfold Program.run at ran
  obtain ⟨fields, -, ran⟩ := bind_eq_ok_iff.1 ran
  split at document
  · rename_i root payload plan
    rw [plan] at ran
    obtain ⟨found, -, ran⟩ := bind_eq_ok_iff.1 ran
    cases found with
    | none =>
      cases ran
      exact ⟨[], rfl⟩
    | some fields =>
      obtain ⟨content, -, ran⟩ := bind_eq_ok_iff.1 ran
      cases ran
      exact ⟨content.children, rfl⟩
  · cases document
  · cases document

/-- Bytes of a document plan are those of a document with proper elements. -/
theorem document_of_serialize (program : p.Named) (document : needsDocument p = true)
    {declared : Bool} {request : Option Value} {bytes : ByteArray}
    (written : p.serialize declared request = .ok bytes) (nonempty : bytes ≠ .empty) :
    ∃ forest, p.run request = .ok (.document forest) ∧ forest ≠ [] ∧ (∀ n ∈ forest, Proper n) ∧
      bytes = (writeDocument declared forest).toUTF8 := by
  obtain ⟨body, ran, rfl⟩ := map_eq_ok_iff.1 written
  obtain ⟨forest, rfl⟩ := document_of_run document ran
  refine ⟨forest, ran, ?_, proper_of_run program ran, rfl⟩
  rintro rfl
  exact nonempty rfl

/-- The bytes of a document are read back as the elements that the run made, and no tag has an
attribute twice. -/
theorem document_reads_back (program : p.Named) (document : needsDocument p = true)
    {declared : Bool} {request : Option Value} {bytes : ByteArray}
    (written : p.serialize declared request = .ok bytes) (nonempty : bytes ≠ .empty) :
    ∃ forest text tokens,
      p.run request = .ok (.document forest) ∧
      bytes = ((if declared then declaration else "") ++ text).toUTF8 ∧
      Xml.read text = some forest ∧
      (∀ n ∈ forest, ∃ name attributes children, n = .element name attributes children) ∧
      tokenize text = some tokens ∧ ∀ t ∈ tokens, (t.attributes.map (·.1)).Nodup := by
  obtain ⟨forest, ran, elements, proper, rfl⟩ :=
    document_of_serialize program document written nonempty
  rw [writeDocument_of_ne_nil elements]
  refine ⟨forest, writeForest forest, forestTokens forest, ran, rfl, read_writeForest proper, ?_,
    tokenize_writeForest proper, ?_⟩
  · intro n member
    cases proper n member with
    | leaf => exact ⟨_, _, _, rfl⟩
    | branch => exact ⟨_, _, _, rfl⟩
  · intro t member
    obtain ⟨n, listed, member⟩ := exists_of_mem_forestTokens member
    exact distinct_of_mem_tokens (proper n listed) member

theorem named_folderProgram : Compile.folderProgram.Named := by
  unfold Program.Named
  decide

/-- A request whose texts look like markup. -/
def folderRequest (host : String) : Value :=
  .struct [
    ("Host", .text host),
    ("Root", .struct [
      ("Id", .text "\"/><x y=\x27"), ("Owner", .text "</Owner>&amp;"),
      ("Inner", .list [.struct [("Owner", .text "")]])])]

/-- The elements of that request. -/
def folderText : String :=
  "<Root xmlns=\"urn:folders\" id=\"&quot;/&gt;&lt;x y=&apos;\">" ++
    "<Owner>&lt;/Owner&gt;&amp;amp;</Owner><Folder xmlns=\"urn:folders\"><Owner/></Folder></Root>"

theorem serialize_folderRequest (host : String) :
    Compile.folderProgram.serialize false (some (folderRequest host)) = .ok folderText.toUTF8 := by
  cbv

theorem document_reads_back_folder :
    ∃ forest text tokens,
      Compile.folderProgram.run (some (folderRequest "")) = .ok (.document forest) ∧
      folderText.toUTF8 = ("" ++ text).toUTF8 ∧ Xml.read text = some forest ∧
      (∀ n ∈ forest, ∃ name attributes children, n = .element name attributes children) ∧
      tokenize text = some tokens ∧ ∀ t ∈ tokens, (t.attributes.map (·.1)).Nodup :=
  document_reads_back named_folderProgram rfl (serialize_folderRequest "")
    (by decide)

end Run

end WireBody
