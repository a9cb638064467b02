import Mathlib.Tactic.SplitIfs
import WireBody.Proofs.Xml.RoundTrip

/-!
# Reading as XML asks for

A processor refuses characters that XML 1.0 does not have, reads every line end as a line feed, and
reads the blanks in attribute values as spaces.  What is written of proper elements reads back with
these changes, since names and markup have no line ends: each text and value is changed by itself.

Main statements: `legal_writeForest_iff` says which elements have a text at all that a processor
reads, `process_writeForest` what it reads, and `process_writeForest_eq_iff` when this is what was
written.
-/

set_option autoImplicit false

namespace WireBody.Xml

/-! ## Characters and line ends -/

/-- The ranges of the characters of XML 1.0. -/
def charRanges : List (Nat × Nat) :=
  [(0x9, 0xA), (0xD, 0xD), (0x20, 0xD7FF), (0xE000, 0xFFFD), (0x10000, 0x10FFFF)]

/-- Whether XML 1.0 has a character. -/
def isXmlChar (c : Char) : Bool := inRanges charRanges c

/-- A text of such characters. -/
def Legal (s : String) : Prop := ∀ c ∈ s.toList, isXmlChar c = true

theorem legal_iff {s : String} : Legal s ↔ s.toList.all isXmlChar = true :=
  List.all_eq_true.symm

instance (s : String) : Decidable (Legal s) := decidable_of_iff _ legal_iff.symm

/-- Characters with each line end a line feed: a carriage return in front of one is left out, and
any other becomes one. -/
def lineFeeds : List Char → List Char
  | [] => []
  | c :: rest =>
    if c = '\r' then
      if rest.head? = some '\n' then lineFeeds rest else '\n' :: lineFeeds rest
    else c :: lineFeeds rest

/-- A text with each line end a line feed. -/
def endLines (s : String) : String := .ofList (lineFeeds s.toList)

/-- An attribute value with each blank a space. -/
def spaced (s : String) : String := .ofList (s.toList.map fun c => if isBlank c then ' ' else c)

/-! ## Changes to texts and values -/

mutual

/-- A node with its texts and attribute values changed. -/
def Node.map (onText onValue : String → String) : Node → Node
  | .element name attributes children =>
    .element name (attributes.map fun a => (a.1, onValue a.2)) (mapForest onText onValue children)
  | .text value => .text (onText value)

/-- Nodes with their texts and attribute values changed. -/
def mapForest (onText onValue : String → String) : List Node → List Node
  | [] => []
  | n :: rest => n.map onText onValue :: mapForest onText onValue rest

end

/-- All texts of a node, and all attribute values, are of some kinds. -/
inductive Node.All (onText onValue : String → Prop) : Node → Prop
  | element {name : String} {attributes : List (String × String)} {children : Forest} :
      (∀ a ∈ attributes, onValue a.2) → (∀ n ∈ children, n.All onText onValue) →
      Node.All onText onValue (.element name attributes children)
  | text {value : String} : onText value → Node.All onText onValue (.text value)

/-- The elements that a processor reads of a text. -/
def process (s : String) : Option Forest :=
  if s.toList.all isXmlChar then (read (endLines s)).map (mapForest id spaced) else none

example : process "<a b=\"1\t2\">3\r\n4\r</a>" =
    some [.element "a" [("b", "1 2")] [.text "3\n4\n"]] := by
  have nodes : read (endLines "<a b=\"1\t2\">3\r\n4\r</a>") =
      some [.element "a" [("b", "1\t2")] [.text "3\n4\n"]] := by rfl
  rw [process, if_pos (by decide), nodes]
  rfl

section

variable {onText onValue : String → Prop} {f f' h h' : String → String}

theorem Node.all_element_iff {name : String} {attributes : List (String × String)}
    {children : Forest} : (Node.element name attributes children).All onText onValue ↔
      (∀ a ∈ attributes, onValue a.2) ∧ ∀ n ∈ children, n.All onText onValue := by
  constructor
  · intro all
    cases all with
    | element values children => exact ⟨values, children⟩
  · exact fun all => .element all.1 all.2

theorem Node.all_text_iff {value : String} :
    (Node.text value).All onText onValue ↔ onText value := by
  constructor
  · intro all
    cases all with
    | text value => exact value
  · exact .text

theorem Node.all_and_iff {onText' onValue' : String → Prop} {n : Node} :
    n.All (fun t => onText t ∧ onText' t) (fun v => onValue v ∧ onValue' v) ↔
      n.All onText onValue ∧ n.All onText' onValue' := by
  constructor
  · intro all
    induction all with
    | element values _ ih =>
      exact ⟨.element (fun a member => (values a member).1) fun n member => (ih n member).1,
        .element (fun a member => (values a member).2) fun n member => (ih n member).2⟩
    | text value => exact ⟨.text value.1, .text value.2⟩
  · rintro ⟨all, all'⟩
    induction all with
    | element values _ ih =>
      obtain ⟨values', children'⟩ := Node.all_element_iff.1 all'
      exact .element (fun a member => ⟨values a member, values' a member⟩)
        fun n member => ih n member (children' n member)
    | text value => exact .text ⟨value, Node.all_text_iff.1 all'⟩

theorem mapForest_eq_map (forest : Forest) :
    mapForest f h forest = forest.map (Node.map f h) := by
  induction forest with
  | nil => rfl
  | cons n rest ih => rw [mapForest, ih, List.map_cons]

mutual

theorem Node.map_map : ∀ n : Node, (n.map f h).map f' h' = n.map (f' ∘ f) (h' ∘ h)
  | .element name attributes children => by
    simp only [Node.map, List.map_map, mapForest_mapForest children, Function.comp_def]
  | .text value => rfl

theorem mapForest_mapForest : ∀ forest : Forest,
    mapForest f' h' (mapForest f h forest) = mapForest (f' ∘ f) (h' ∘ h) forest
  | [] => rfl
  | n :: rest => by rw [mapForest, mapForest, mapForest, n.map_map, mapForest_mapForest rest]

end

mutual

/-- Just the changes of texts and values change a node. -/
theorem Node.map_eq_self_iff : ∀ n : Node,
    n.map f h = n ↔ n.All (fun t => f t = t) (fun v => h v = v)
  | .element name attributes children => by
    have values : (attributes.map fun a => (a.1, h a.2)) = attributes ↔
        ∀ a ∈ attributes, h a.2 = a.2 := by
      constructor
      · intro same a member
        have kept := List.map_inj_left.1 (same.trans (List.map_id attributes).symm) a member
        exact congrArg Prod.snd kept
      · intro kept
        refine (List.map_congr_left fun a member => ?_).trans (List.map_id attributes)
        rw [kept a member]
        rfl
    simp only [Node.map, Node.element.injEq, true_and, values, Node.all_element_iff,
      mapForest_eq_self_iff children]
  | .text value => by rw [Node.map, Node.text.injEq, Node.all_text_iff]

theorem mapForest_eq_self_iff : ∀ forest : Forest,
    mapForest f h forest = forest ↔ ∀ n ∈ forest, n.All (fun t => f t = t) (fun v => h v = v)
  | [] => by simp [mapForest]
  | n :: rest => by
    rw [mapForest, List.cons.injEq, n.map_eq_self_iff, mapForest_eq_self_iff rest,
      List.forall_mem_cons]

end

theorem proper_map {n : Node} (some : ∀ {t : String}, t ≠ "" → f t ≠ "") (proper : Proper n) :
    Proper (n.map f h) := by
  have tag {name : String} {attributes : List (String × String)}
      (tag : ProperTag name attributes) :
      ProperTag name (attributes.map fun a => (a.1, h a.2)) := by
    refine ⟨tag.named, ?_, ?_⟩
    · rw [List.forall_mem_map]
      exact tag.attributesNamed
    · rw [List.map_map]
      exact tag.distinct
  induction proper with
  | leaf proper value => exact .leaf (tag proper) (some value)
  | branch proper _ ih =>
    refine .branch (tag proper) ?_
    rw [mapForest_eq_map, List.forall_mem_map]
    exact ih

end

/-! ## Line ends in what is written -/

theorem lineFeeds_cons_of_ne {c : Char} (plain : c ≠ '\r') (rest : List Char) :
    lineFeeds (c :: rest) = c :: lineFeeds rest := by
  rw [lineFeeds, if_neg plain]

/-- Where there is no carriage return nothing changes. -/
theorem lineFeeds_append_of_plain {a : List Char} (plain : '\r' ∉ a) (b : List Char) :
    lineFeeds (a ++ b) = a ++ lineFeeds b := by
  induction a with
  | nil => rfl
  | cons c rest ih =>
    rw [List.mem_cons, not_or] at plain
    rw [List.cons_append, lineFeeds_cons_of_ne (Ne.symm plain.1), ih plain.2, List.cons_append]

/-- Line ends are found piece by piece where the second piece does not go on with the last line end
of the first. -/
theorem lineFeeds_append (a : List Char) {b : List Char} (apart : b.head? ≠ some '\n') :
    lineFeeds (a ++ b) = lineFeeds a ++ lineFeeds b := by
  induction a with
  | nil => rfl
  | cons c rest ih =>
    have next : (rest ++ b).head? = some '\n' ↔ rest.head? = some '\n' := by
      cases rest with
      | nil => exact iff_of_false apart nofun
      | cons d _ => rfl
    simp only [List.cons_append, lineFeeds, next, ih]
    split_ifs <;> rfl

theorem cr_notMem_lineFeeds (s : List Char) : '\r' ∉ lineFeeds s := by
  induction s with
  | nil => exact List.not_mem_nil
  | cons c rest ih =>
    rw [lineFeeds]
    split_ifs with cr
    · exact ih
    · exact List.not_mem_cons_of_ne_of_not_mem (by decide) ih
    · exact List.not_mem_cons_of_ne_of_not_mem (Ne.symm cr) ih

theorem lineFeeds_eq_self_iff {s : List Char} : lineFeeds s = s ↔ '\r' ∉ s := by
  constructor
  · intro same
    rw [← same]
    exact cr_notMem_lineFeeds s
  · intro plain
    simpa [lineFeeds] using lineFeeds_append_of_plain plain []

theorem lineFeeds_ne_nil {s : List Char} (some : s ≠ []) : lineFeeds s ≠ [] := by
  induction s with
  | nil => exact absurd rfl some
  | cons c rest ih =>
    rw [lineFeeds]
    split_ifs with cr lf
    · refine ih ?_
      rintro rfl
      cases lf
    · exact List.cons_ne_nil _ _
    · exact List.cons_ne_nil _ _

theorem head?_escaped_iff (s : List Char) :
    (s.flatMap escapeChar).head? = some '\n' ↔ s.head? = some '\n' := by
  cases s with
  | nil => rfl
  | cons c rest =>
    rw [List.flatMap_cons]
    unfold escapeChar
    split <;> simp

theorem lineFeeds_escaped (s : List Char) :
    lineFeeds (s.flatMap escapeChar) = (lineFeeds s).flatMap escapeChar := by
  induction s with
  | nil => rfl
  | cons c rest ih =>
    rw [List.flatMap_cons]
    by_cases cr : c = '\r'
    · subst cr
      have kept : escapeChar '\r' = ['\r'] := rfl
      rw [kept, List.singleton_append, lineFeeds, lineFeeds, if_pos rfl, if_pos rfl, ih]
      simp only [head?_escaped_iff]
      split_ifs <;> rfl
    · have plain : '\r' ∉ escapeChar c := by
        unfold escapeChar
        split <;> simp [Ne.symm cr]
      rw [lineFeeds_append_of_plain plain, ih, lineFeeds_cons_of_ne cr, List.flatMap_cons]

theorem lineFeeds_escape (s : String) {b : List Char} (apart : b.head? ≠ some '\n') :
    lineFeeds ((escape s).toList ++ b) = (escape (endLines s)).toList ++ lineFeeds b := by
  rw [lineFeeds_append _ apart, escape, escape, endLines, String.toList_ofList,
    String.toList_ofList, String.toList_ofList, lineFeeds_escaped]

theorem cr_notMem_of_isName {name : String} (named : isName name = true) :
    '\r' ∉ name.toList := by
  intro member
  have char := isNameChar_of_isName named _ member
  revert char
  decide

theorem lineFeeds_writeAttributes {attributes : List (String × String)}
    (named : ∀ a ∈ attributes, isName a.1 = true) (b : List Char) :
    lineFeeds ((writeAttributes attributes).toList ++ b) =
      (writeAttributes (attributes.map fun a => (a.1, endLines a.2))).toList ++ lineFeeds b := by
  induction attributes with
  | nil => rfl
  | cons a rest ih =>
    obtain ⟨name, value⟩ := a
    obtain ⟨first, others⟩ := List.forall_mem_cons.1 named
    have opened (b : List Char) : lineFeeds (' ' :: (name.toList ++ '=' :: '"' :: b)) =
        ' ' :: (name.toList ++ '=' :: '"' :: lineFeeds b) := by
      rw [lineFeeds_cons_of_ne (by decide), lineFeeds_append_of_plain (cr_notMem_of_isName first),
        lineFeeds_cons_of_ne (by decide), lineFeeds_cons_of_ne (by decide)]
    -- The quote that closes the value goes on with no line end.
    have closed : ('"' :: ((writeAttributes rest).toList ++ b)).head? ≠ some '\n' := by
      simp
    have written (value : String) (rest : List (String × String)) (b : List Char) :
        (writeAttributes ((name, value) :: rest)).toList ++ b =
          ' ' :: (name.toList ++ '=' :: '"' :: ((escape value).toList ++
            '"' :: ((writeAttributes rest).toList ++ b))) := by
      simp [writeAttributes, String.toList_append]
    rw [List.map_cons, written, written, opened, lineFeeds_escape value closed,
      lineFeeds_cons_of_ne (by decide), ih others]

/-- The line ends of proper elements are those of their texts and values. -/
theorem lineFeeds_writeForest {forest : Forest}
    (each : ∀ n ∈ forest, ∀ b, lineFeeds (n.write.toList ++ b) =
      (n.map endLines endLines).write.toList ++ lineFeeds b) (b : List Char) :
    lineFeeds ((writeForest forest).toList ++ b) =
      (writeForest (mapForest endLines endLines forest)).toList ++ lineFeeds b := by
  induction forest with
  | nil => rfl
  | cons n rest ih =>
    obtain ⟨first, others⟩ := List.forall_mem_cons.1 each
    rw [mapForest, writeForest, writeForest, String.toList_append, String.toList_append,
      List.append_assoc, List.append_assoc, first, ih others]

section

variable {name : String} {attributes : List (String × String)}

theorem lineFeeds_write_of_children (tag : ProperTag name attributes) {child : Node}
    {others : Forest} (inner : ∀ b, lineFeeds ((writeForest (child :: others)).toList ++ '<' :: b) =
      (writeForest (mapForest endLines endLines (child :: others))).toList ++ '<' :: lineFeeds b)
    (b : List Char) :
    lineFeeds ((Node.element name attributes (child :: others)).write.toList ++ b) =
      ((Node.element name attributes (child :: others)).map endLines endLines).write.toList ++
        lineFeeds b := by
  have plain : '\r' ∉ name.toList := cr_notMem_of_isName tag.named
  rw [Node.map, mapForest, toList_write_of_children, toList_write_of_children, ← mapForest,
    lineFeeds_cons_of_ne (by decide), lineFeeds_append_of_plain plain,
    lineFeeds_writeAttributes tag.attributesNamed, lineFeeds_cons_of_ne (by decide), inner,
    lineFeeds_cons_of_ne (by decide), lineFeeds_append_of_plain plain,
    lineFeeds_cons_of_ne (by decide)]

theorem lineFeeds_write {n : Node} (proper : Proper n) (b : List Char) :
    lineFeeds (n.write.toList ++ b) = (n.map endLines endLines).write.toList ++ lineFeeds b := by
  induction proper generalizing b with
  | @leaf name attributes value tag _ =>
    refine lineFeeds_write_of_children tag (fun b => ?_) b
    have apart : ('<' :: b).head? ≠ some '\n' := by simp
    have written (value : String) : writeForest [.text value] = escape value := by
      simp [writeForest, Node.write]
    rw [mapForest, mapForest, Node.map, written, written, lineFeeds_escape value apart,
      lineFeeds_cons_of_ne (by decide)]
  | @branch name attributes children tag _ ih =>
    cases children with
    | nil =>
      have written (attributes : List (String × String)) (b : List Char) :
          (Node.element name attributes []).write.toList ++ b =
            '<' :: (name.toList ++ ((writeAttributes attributes).toList ++ '/' :: '>' :: b)) := by
        simp [Node.write, String.toList_append]
      rw [Node.map, mapForest, written, written, lineFeeds_cons_of_ne (by decide),
        lineFeeds_append_of_plain (cr_notMem_of_isName tag.named),
        lineFeeds_writeAttributes tag.attributesNamed, lineFeeds_cons_of_ne (by decide),
        lineFeeds_cons_of_ne (by decide)]
    | cons child others =>
      refine lineFeeds_write_of_children tag (fun b => ?_) b
      rw [lineFeeds_writeForest ih, lineFeeds_cons_of_ne (by decide)]

end

theorem endLines_writeForest {forest : Forest} (proper : ∀ n ∈ forest, Proper n) :
    endLines (writeForest forest) = writeForest (mapForest endLines endLines forest) := by
  have whole := lineFeeds_writeForest (fun n member => lineFeeds_write (proper n member)) []
  rw [List.append_nil, lineFeeds, List.append_nil] at whole
  rw [endLines, whole, String.ofList_toList]

/-! ## Characters of what is written -/

theorem legal_append_iff {s t : String} : Legal (s ++ t) ↔ Legal s ∧ Legal t := by
  rw [Legal, String.toList_append, List.forall_mem_append]
  rfl

theorem all_escapeChar (c : Char) : (escapeChar c).all isXmlChar = isXmlChar c := by
  unfold escapeChar
  split
  case h_6 => rw [List.all_cons, List.all_nil, Bool.and_true]
  all_goals rfl

theorem legal_escape_iff {s : String} : Legal (escape s) ↔ Legal s := by
  rw [legal_iff, legal_iff, escape, String.toList_ofList, List.all_flatMap]
  simp only [all_escapeChar]

/-- A range inside others adds nothing to them. -/
theorem inRanges_of_within {inner outer : List (Nat × Nat)}
    (within : ∀ r ∈ inner, ∃ r' ∈ outer, r'.1 ≤ r.1 ∧ r.2 ≤ r'.2) {c : Char}
    (member : inRanges inner c = true) : inRanges outer c = true := by
  simp only [inRanges, List.any_eq_true, Bool.and_eq_true, decide_eq_true_eq] at member ⊢
  obtain ⟨r, listed, lower, upper⟩ := member
  obtain ⟨r', listed', lower', upper'⟩ := within r listed
  exact ⟨r', listed', Nat.le_trans lower' lower, Nat.le_trans upper upper'⟩

theorem legal_of_isName {name : String} (named : isName name = true) : Legal name := by
  intro c member
  have char := isNameChar_of_isName named c member
  rw [isNameChar, Bool.or_eq_true] at char
  rcases char with start | rest
  · exact inRanges_of_within (by decide) start
  · exact inRanges_of_within (by decide) rest

theorem legal_writeAttributes_iff {attributes : List (String × String)}
    (named : ∀ a ∈ attributes, isName a.1 = true) :
    Legal (writeAttributes attributes) ↔ ∀ a ∈ attributes, Legal a.2 := by
  induction attributes with
  | nil => exact iff_of_true (by decide) nofun
  | cons a rest ih =>
    obtain ⟨name, value⟩ := a
    obtain ⟨first, others⟩ := List.forall_mem_cons.1 named
    have name : Legal name := legal_of_isName first
    have space : Legal " " := by decide
    have opened : Legal "=\"" := by decide
    have closed : Legal "\"" := by decide
    rw [writeAttributes, List.forall_mem_cons]
    simp only [legal_append_iff, legal_escape_iff, ih others, name, space, opened, closed,
      true_and, and_true]

theorem legal_writeForest {forest : Forest}
    (each : ∀ n ∈ forest, (Legal n.write ↔ n.All Legal Legal)) :
    Legal (writeForest forest) ↔ ∀ n ∈ forest, n.All Legal Legal := by
  induction forest with
  | nil => exact iff_of_true (by decide) nofun
  | cons n rest ih =>
    obtain ⟨first, others⟩ := List.forall_mem_cons.1 each
    rw [writeForest, legal_append_iff, first, ih others, List.forall_mem_cons]

theorem legal_write_iff {n : Node} (proper : Proper n) : Legal n.write ↔ n.All Legal Legal := by
  have marks : Legal "<" ∧ Legal ">" ∧ Legal "</" ∧ Legal "/>" := by decide
  obtain ⟨openMark, closeMark, endMark, emptyMark⟩ := marks
  induction proper with
  | @leaf name attributes value tag _ =>
    have name : Legal name := legal_of_isName tag.named
    simp only [Node.write, writeForest, legal_append_iff, legal_escape_iff,
      legal_writeAttributes_iff tag.attributesNamed, Node.all_element_iff, List.forall_mem_singleton,
      Node.all_text_iff, name, openMark, closeMark, endMark, true_and, and_true]
    exact and_congr_right fun _ => and_iff_left (by decide)
  | @branch name attributes children tag _ ih =>
    have name : Legal name := legal_of_isName tag.named
    cases children with
    | nil =>
      simp only [Node.write, legal_append_iff, legal_writeAttributes_iff tag.attributesNamed,
        Node.all_element_iff, name, openMark, emptyMark, true_and, and_true]
      exact (and_iff_left (List.forall_mem_nil _)).symm
    | cons child others =>
      simp only [Node.write, legal_append_iff, legal_writeAttributes_iff tag.attributesNamed,
        Node.all_element_iff, legal_writeForest ih, name, openMark, closeMark, endMark, true_and,
        and_true]

/-- A processor takes what is written if it takes all texts and values. -/
theorem legal_writeForest_iff {forest : Forest} (proper : ∀ n ∈ forest, Proper n) :
    Legal (writeForest forest) ↔ ∀ n ∈ forest, n.All Legal Legal :=
  legal_writeForest fun n member => legal_write_iff (proper n member)

/-! ## Reading -/

theorem endLines_ne_empty {s : String} (some : s ≠ "") : endLines s ≠ "" := by
  intro empty
  have chars : s.toList ≠ [] := fun none => some (String.toList_eq_nil_iff.1 none)
  apply lineFeeds_ne_nil chars
  rw [← String.toList_ofList (l := lineFeeds s.toList)]
  exact String.toList_eq_nil_iff.2 empty

/-- A processor reads the texts with their line ends changed, and the values with their blanks
changed besides. -/
theorem process_writeForest {forest : Forest} (proper : ∀ n ∈ forest, Proper n)
    (legal : Legal (writeForest forest)) :
    process (writeForest forest) = some (mapForest endLines (spaced ∘ endLines) forest) := by
  have changed : ∀ n ∈ mapForest endLines endLines forest, Proper n := by
    rw [mapForest_eq_map, List.forall_mem_map]
    exact fun n member => proper_map endLines_ne_empty (proper n member)
  rw [process, if_pos (legal_iff.1 legal), endLines_writeForest proper, read_writeForest changed,
    Option.map_some, mapForest_mapForest, Function.id_comp]

/-- The characters of a text that a processor reads as they are. -/
def TextKept (s : String) : Prop := Legal s ∧ '\r' ∉ s.toList

/-- The characters of an attribute value that a processor reads as they are. -/
def ValueKept (s : String) : Prop := Legal s ∧ ∀ c ∈ s.toList, isBlank c = true → c = ' '

theorem endLines_eq_self_iff {s : String} : endLines s = s ↔ '\r' ∉ s.toList := by
  rw [← lineFeeds_eq_self_iff, ← String.toList_inj, endLines, String.toList_ofList]

theorem spaced_eq_self_iff {s : String} :
    spaced s = s ↔ ∀ c ∈ s.toList, isBlank c = true → c = ' ' := by
  rw [← String.toList_inj, spaced, String.toList_ofList]
  constructor
  · intro same c member blank
    have kept := List.map_inj_left.1 (same.trans (List.map_id s.toList).symm) c member
    rw [if_pos blank] at kept
    exact kept.symm
  · intro kept
    refine (List.map_congr_left fun c member => ?_).trans (List.map_id s.toList)
    by_cases blank : isBlank c = true
    · rw [if_pos blank, kept c member blank]
      rfl
    · rw [if_neg blank]
      rfl

theorem spaced_endLines_eq_self_iff {s : String} :
    spaced (endLines s) = s ↔ ∀ c ∈ s.toList, isBlank c = true → c = ' ' := by
  constructor
  · intro same c member blank
    rw [← same, spaced, String.toList_ofList] at member
    obtain ⟨d, -, rfl⟩ := List.mem_map.1 member
    split_ifs with h
    · rfl
    · rw [if_neg h] at blank
      exact absurd blank h
  · intro kept
    have plain : '\r' ∉ s.toList := fun member => absurd (kept _ member rfl) (by decide)
    rw [endLines_eq_self_iff.2 plain, spaced_eq_self_iff.2 kept]

/-- A processor reads what was written just if it takes each text and value and leaves it as it
is. -/
theorem process_writeForest_eq_iff {forest : Forest} (proper : ∀ n ∈ forest, Proper n) :
    process (writeForest forest) = some forest ↔ ∀ n ∈ forest, n.All TextKept ValueKept := by
  have texts : TextKept = fun t => Legal t ∧ endLines t = t := by
    funext t
    rw [TextKept, endLines_eq_self_iff]
  have values : ValueKept = fun v => Legal v ∧ (spaced ∘ endLines) v = v := by
    funext v
    rw [ValueKept, Function.comp_apply, spaced_endLines_eq_self_iff]
  have parts : (∀ n ∈ forest, n.All TextKept ValueKept) ↔
      Legal (writeForest forest) ∧ mapForest endLines (spaced ∘ endLines) forest = forest := by
    rw [legal_writeForest_iff proper, mapForest_eq_self_iff, texts, values]
    simp only [Node.all_and_iff, imp_and, forall_and]
  rw [parts]
  constructor
  · intro same
    by_cases legal : Legal (writeForest forest)
    · rw [process_writeForest proper legal, Option.some.injEq] at same
      exact ⟨legal, same⟩
    · rw [process, if_neg fun all => legal (legal_iff.2 all)] at same
      cases same
  · rintro ⟨legal, same⟩
    rw [process_writeForest proper legal, same]

end WireBody.Xml
