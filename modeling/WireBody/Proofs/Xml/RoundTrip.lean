import WireBody.Proofs.Xml.Reader

/-!
# What is written reads back

A proper element has names, each attribute once, and holds either one text that is not empty or
elements alone.  What is written of proper elements is read back as just these: escaping leaves no
character that ends a text or a value, and a text ends where its element does.

Main statement: `read_writeForest`.
-/

set_option autoImplicit false

namespace WireBody.Xml

/-! ## Texts -/

namespace Passage

theorem run_cons (p : Passage) (c : Char) (rest : List Char) :
    p.run (c :: rest) = (p.step c).bind fun q => q.run rest :=
  List.foldlM_cons

theorem run_append (p : Passage) (a b : List Char) :
    p.run (a ++ b) = (p.run a).bind fun q => q.run b :=
  List.foldlM_append

theorem run_escapeChar (chars : List Char) (c : Char) :
    (Passage.mk chars none).run (escapeChar c) = some ⟨chars ++ [c], none⟩ := by
  unfold escapeChar
  split
  · rfl
  · rfl
  · rfl
  · rfl
  · rfl
  · rename_i notAnd _
    have plain : c ≠ '&' := notAnd
    simp [run, step, plain]

/-- Escaped characters are read as the characters themselves. -/
theorem run_escaped (s chars : List Char) :
    (Passage.mk chars none).run (s.flatMap escapeChar) = some ⟨chars ++ s, none⟩ := by
  induction s generalizing chars with
  | nil => simp [run]
  | cons c rest ih =>
    rw [List.flatMap_cons, run_append, run_escapeChar, Option.bind_some, ih]
    simp

end Passage

/-- Escaping leaves neither brackets nor quotes. -/
theorem plain_of_mem_escaped {s : List Char} {c : Char} (member : c ∈ s.flatMap escapeChar) :
    c ≠ '<' ∧ c ≠ '"' := by
  obtain ⟨d, -, member⟩ := List.mem_flatMap.1 member
  unfold escapeChar at member
  split at member
  case h_6 notOpen _ _ _ notQuote =>
    rw [List.mem_singleton] at member
    subst member
    exact ⟨notOpen, notQuote⟩
  all_goals
    simp only [List.mem_cons, List.not_mem_nil, or_false] at member
    rcases member with rfl | rfl | rfl | rfl | rfl | rfl <;> decide

/-! ## Tags -/

theorem isNameChar_of_isName {s : String} (name : isName s = true) :
    ∀ c ∈ s.toList, isNameChar c = true := by
  unfold isName at name
  cases h : s.toList with
  | nil => exact nofun
  | cons c rest =>
    rw [h, isNameOf, Bool.and_eq_true, List.all_eq_true] at name
    intro d member
    rcases List.mem_cons.1 member with rfl | member
    · rw [isNameChar, name.1, Bool.true_or]
    · exact name.2 d member

theorem ne_nil_of_isName {s : String} (name : isName s = true) : s.toList ≠ [] := by
  intro empty
  rw [isName, empty, isNameOf] at name
  cases name

namespace Lexer

variable {tokens : List Token}

theorem run_cons (l : Lexer) (c : Char) (rest : List Char) :
    l.run (c :: rest) = (l.step c).bind fun m => m.run rest :=
  List.foldlM_cons

theorem run_append (l : Lexer) (a b : List Char) :
    l.run (a ++ b) = (l.run a).bind fun m => m.run b :=
  List.foldlM_append

/-- Characters of a name are gathered wherever the lexer is in a name. -/
theorem run_name (mode : List Char → Mode)
    (gathers : ∀ name c, isNameChar c = true →
      step ⟨tokens, mode name⟩ c = some ⟨tokens, mode (name ++ [c])⟩)
    {chars : List Char} (named : ∀ c ∈ chars, isNameChar c = true) (name : List Char) :
    run ⟨tokens, mode name⟩ chars = some ⟨tokens, mode (name ++ chars)⟩ := by
  induction chars generalizing name with
  | nil => rw [List.append_nil]; rfl
  | cons c rest ih =>
    obtain ⟨first, others⟩ := List.forall_mem_cons.1 named
    rw [run_cons, gathers name c first, Option.bind_some, ih others, List.append_assoc]
    rfl

/-- Characters of a text or value are read as such wherever the lexer is in one. -/
theorem run_passage (mode : Passage → Mode)
    (reads : ∀ p c, c ≠ '<' → c ≠ '"' →
      step ⟨tokens, mode p⟩ c = (p.step c).map fun q => ⟨tokens, mode q⟩)
    {chars : List Char} (plain : ∀ c ∈ chars, c ≠ '<' ∧ c ≠ '"') (p : Passage) :
    run ⟨tokens, mode p⟩ chars = (p.run chars).map fun q => ⟨tokens, mode q⟩ := by
  induction chars generalizing p with
  | nil => rfl
  | cons c rest ih =>
    obtain ⟨first, others⟩ := List.forall_mem_cons.1 plain
    rw [run_cons, Passage.run_cons, reads p c first.1 first.2]
    cases p.step c with
    | none => rfl
    | some q => exact ih others q

/-- What is escaped is read as it was, wherever the lexer is in a text or value. -/
theorem run_escape (mode : Passage → Mode)
    (reads : ∀ p c, c ≠ '<' → c ≠ '"' →
      step ⟨tokens, mode p⟩ c = (p.step c).map fun q => ⟨tokens, mode q⟩) (s : String) :
    run ⟨tokens, mode .start⟩ (escape s).toList = some ⟨tokens, mode ⟨s.toList, none⟩⟩ := by
  have plain : ∀ c ∈ s.toList.flatMap escapeChar, c ≠ '<' ∧ c ≠ '"' :=
    fun _ member => plain_of_mem_escaped member
  rw [escape, String.toList_ofList, run_passage mode reads plain, Passage.start,
    Passage.run_escaped]
  rfl

/-- In a start tag that has a name and some attributes. -/
def InTag (l : Lexer) (tokens : List Token) (tag : Tag) : Prop :=
  ∀ c, isNameChar c = false → l.step c = behind tokens tag c

theorem inTag_startName (tokens : List Token) (name : String) :
    InTag ⟨tokens, .startName name.toList⟩ tokens ⟨name, []⟩ := by
  intro c delimits
  simp [step, delimits, String.ofList_toList]

theorem inTag_attributeEnd (tokens : List Token) (tag : Tag) :
    InTag ⟨tokens, .attributeEnd tag⟩ tokens tag := by
  intro c _
  rfl

/-- A name is read to its end where one may begin. -/
theorem run_named (mode : List Char → Mode) {l : Lexer}
    (begins : ∀ c, isNameChar c = true → l.step c = some ⟨tokens, mode [c]⟩)
    (gathers : ∀ name c, isNameChar c = true →
      step ⟨tokens, mode name⟩ c = some ⟨tokens, mode (name ++ [c])⟩)
    {name : String} (named : isName name = true) (rest : List Char) :
    run l (name.toList ++ rest) = run ⟨tokens, mode name.toList⟩ rest := by
  have chars := isNameChar_of_isName named
  cases h : name.toList with
  | nil => exact absurd h (ne_nil_of_isName named)
  | cons c more =>
    rw [h] at chars
    obtain ⟨first, others⟩ := List.forall_mem_cons.1 chars
    rw [List.cons_append, run_cons, begins c first, Option.bind_some, run_append,
      run_name mode gathers others, Option.bind_some]
    rfl

theorem run_startName {name : String} (named : isName name = true) (rest : List Char) :
    run ⟨tokens, .opened⟩ (name.toList ++ rest) = run ⟨tokens, .startName name.toList⟩ rest :=
  run_named .startName (fun c first => by simp [step, first])
    (fun name c next => by simp [step, next]) named rest

theorem run_endName {name : String} (named : isName name = true) (rest : List Char) :
    run ⟨tokens, .endName []⟩ (name.toList ++ rest) = run ⟨tokens, .endName name.toList⟩ rest :=
  run_named .endName (fun c first => by simp [step, first])
    (fun name c next => by simp [step, next]) named rest

theorem run_attributeName {tag : Tag} {name : String} (named : isName name = true)
    (rest : List Char) :
    run ⟨tokens, .separated tag⟩ (name.toList ++ rest) =
      run ⟨tokens, .attributeName tag name.toList⟩ rest :=
  run_named (.attributeName tag) (fun c first => by simp [step, first])
    (fun name c next => by simp [step, next]) named rest

/-- An attribute is read with its value. -/
theorem run_attribute {l : Lexer} {tag : Tag} (inside : InTag l tokens tag) {name : String}
    (named : isName name = true) (value : String) (rest : List Char) :
    run l (' ' :: (name.toList ++ '=' :: '"' :: ((escape value).toList ++ '"' :: rest))) =
      run ⟨tokens, .attributeEnd ⟨tag.name, tag.attributes ++ [(name, value)]⟩⟩ rest := by
  have blank : l.step ' ' = some ⟨tokens, .separated tag⟩ := inside ' ' (by decide)
  have reads : run ⟨tokens, .value tag name .start⟩ (escape value).toList =
      some ⟨tokens, .value tag name ⟨value.toList, none⟩⟩ :=
    run_escape (.value tag name) (fun p c notOpen notQuote => by simp [step, notOpen, notQuote])
      value
  rw [run_cons, blank, Option.bind_some, run_attributeName named, run_cons]
  have equals : step ⟨tokens, .attributeName tag name.toList⟩ '=' =
      some ⟨tokens, .quote tag name⟩ := by
    have delimits : isNameChar '=' = false := by decide
    simp [step, delimits, String.ofList_toList]
  have quote : step ⟨tokens, .quote tag name⟩ '"' = some ⟨tokens, .value tag name .start⟩ := rfl
  have close : step ⟨tokens, .value tag name ⟨value.toList, none⟩⟩ '"' =
      some ⟨tokens, .attributeEnd ⟨tag.name, tag.attributes ++ [(name, value)]⟩⟩ := by
    simp [step, String.ofList_toList]
  rw [equals, Option.bind_some, run_cons, quote, Option.bind_some, run_append, reads,
    Option.bind_some, run_cons, close, Option.bind_some]

/-- All attributes of a tag are read, in their order. -/
theorem run_attributes {attributes : List (String × String)}
    (named : ∀ a ∈ attributes, isName a.1 = true) {l : Lexer} {tag : Tag}
    (inside : InTag l tokens tag) :
    ∃ m, InTag m tokens ⟨tag.name, tag.attributes ++ attributes⟩ ∧
      ∀ rest, run l ((writeAttributes attributes).toList ++ rest) = run m rest := by
  induction attributes generalizing l tag with
  | nil =>
    refine ⟨l, ?_, fun rest => rfl⟩
    rw [List.append_nil]
    exact inside
  | cons a more ih =>
    obtain ⟨first, others⟩ := List.forall_mem_cons.1 named
    obtain ⟨m, within, reads⟩ := ih others
      (inTag_attributeEnd tokens ⟨tag.name, tag.attributes ++ [(a.1, a.2)]⟩)
    refine ⟨m, ?_, fun rest => ?_⟩
    · rw [List.append_assoc] at within
      exact within
    · rw [← reads rest, ← run_attribute inside first a.2]
      congr 1
      simp [writeAttributes, String.toList_append]

/-- In content that may end here: nothing is left of an entity. -/
theorem step_open (chars : List Char) :
    step ⟨tokens, .content ⟨chars, none⟩⟩ '<' = some ⟨flushed tokens chars, .opened⟩ := rfl

theorem emit_named {t : Token} (named : t.named = true) :
    emit tokens t = some ⟨tokens ++ [t], .content .start⟩ := if_pos named

theorem run_text (value : String) (rest : List Char) :
    run ⟨tokens, .content .start⟩ ((escape value).toList ++ rest) =
      run ⟨tokens, .content ⟨value.toList, none⟩⟩ rest := by
  have reads : run ⟨tokens, .content .start⟩ (escape value).toList =
      some ⟨tokens, .content ⟨value.toList, none⟩⟩ :=
    run_escape .content (fun p c notOpen _ => by simp [step, notOpen]) value
  rw [run_append, reads, Option.bind_some]

/-- A start tag is read up to its end. -/
theorem run_tag {name : String} {attributes : List (String × String)} (named : isName name = true)
    (attributesNamed : ∀ a ∈ attributes, isName a.1 = true) (chars : List Char) :
    ∃ l, InTag l (flushed tokens chars) ⟨name, attributes⟩ ∧ ∀ rest,
      run ⟨tokens, .content ⟨chars, none⟩⟩
          ('<' :: (name.toList ++ ((writeAttributes attributes).toList ++ rest))) =
        run l rest := by
  obtain ⟨l, inside, reads⟩ := run_attributes attributesNamed
    (inTag_startName (flushed tokens chars) name)
  refine ⟨l, inside, fun rest => ?_⟩
  rw [run_cons, step_open, Option.bind_some, run_startName named, reads]

theorem run_startTag {name : String} {attributes : List (String × String)}
    (named : isName name = true) (attributesNamed : ∀ a ∈ attributes, isName a.1 = true)
    (chars rest : List Char) :
    run ⟨tokens, .content ⟨chars, none⟩⟩
        ('<' :: (name.toList ++ ((writeAttributes attributes).toList ++ '>' :: rest))) =
      run ⟨flushed tokens chars ++ [.startTag name attributes], .content .start⟩ rest := by
  obtain ⟨l, inside, reads⟩ := run_tag named attributesNamed chars
  have tag : (Token.startTag name attributes).named = true := by
    simpa [Token.named, named] using attributesNamed
  rw [reads, run_cons, inside '>' (by decide)]
  simp [behind, isBlank, emit_named tag]

theorem run_emptyTag {name : String} {attributes : List (String × String)}
    (named : isName name = true) (attributesNamed : ∀ a ∈ attributes, isName a.1 = true)
    (chars rest : List Char) :
    run ⟨tokens, .content ⟨chars, none⟩⟩
        ('<' :: (name.toList ++ ((writeAttributes attributes).toList ++ '/' :: '>' :: rest))) =
      run ⟨flushed tokens chars ++ [.emptyTag name attributes], .content .start⟩ rest := by
  obtain ⟨l, inside, reads⟩ := run_tag named attributesNamed chars
  have tag : (Token.emptyTag name attributes).named = true := by
    simpa [Token.named, named] using attributesNamed
  rw [reads, run_cons, inside '/' (by decide)]
  simp [behind, isBlank, run_cons, step, emit_named tag]

theorem run_endTag {name : String} (named : isName name = true) (chars rest : List Char) :
    run ⟨tokens, .content ⟨chars, none⟩⟩ ('<' :: '/' :: (name.toList ++ '>' :: rest)) =
      run ⟨flushed tokens chars ++ [.endTag name], .content .start⟩ rest := by
  have slash : step ⟨flushed tokens chars, .opened⟩ '/' =
      some ⟨flushed tokens chars, .endName []⟩ := rfl
  have close : step ⟨flushed tokens chars, .endName name.toList⟩ '>' =
      some ⟨flushed tokens chars ++ [.endTag name], .content .start⟩ := by
    have delimits : isNameChar '>' = false := by decide
    have tag : (Token.endTag name).named = true := named
    simp [step, delimits, String.ofList_toList, emit_named tag]
  rw [run_cons, step_open, Option.bind_some, run_cons, slash, Option.bind_some, run_endName named,
    run_cons, close, Option.bind_some]

theorem flushed_text {value : String} (some : value ≠ "") :
    flushed tokens value.toList = tokens ++ [.text value] := by
  have present : value.toList.isEmpty = false := by
    rw [List.isEmpty_eq_false_iff]
    exact fun none => some (String.toList_eq_nil_iff.1 none)
  rw [flushed, present, String.ofList_toList]
  rfl

end Lexer

/-! ## Elements -/

/-- A tag with names, each attribute once. -/
structure ProperTag (name : String) (attributes : List (String × String)) : Prop where
  named : isName name = true
  attributesNamed : ∀ a ∈ attributes, isName a.1 = true
  distinct : (attributes.map (·.1)).Nodup

/-- An element that holds one text, which is not empty, or proper elements. -/
inductive Proper : Node → Prop
  | leaf {name : String} {attributes : List (String × String)} {value : String} :
      ProperTag name attributes → value ≠ "" → Proper (.element name attributes [.text value])
  | branch {name : String} {attributes : List (String × String)} {children : Forest} :
      ProperTag name attributes → (∀ n ∈ children, Proper n) →
      Proper (.element name attributes children)

mutual

/-- The tags and texts of a node. -/
def Node.tokens : Node → List Token
  | .element name attributes [] => [.emptyTag name attributes]
  | .element name attributes (child :: rest) =>
    .startTag name attributes :: (forestTokens (child :: rest) ++ [.endTag name])
  | .text value => [.text value]

/-- The tags and texts of some nodes. -/
def forestTokens : List Node → List Token
  | [] => []
  | n :: rest => n.tokens ++ forestTokens rest

end

/-- What is written of a node is read as its tokens. -/
def ReadsBack (n : Node) : Prop :=
  ∀ tokens rest, Lexer.run ⟨tokens, .content .start⟩ (n.write.toList ++ rest) =
    Lexer.run ⟨tokens ++ n.tokens, .content .start⟩ rest

theorem run_writeForest {forest : Forest} (back : ∀ n ∈ forest, ReadsBack n)
    (tokens : List Token) (rest : List Char) :
    Lexer.run ⟨tokens, .content .start⟩ ((writeForest forest).toList ++ rest) =
      Lexer.run ⟨tokens ++ forestTokens forest, .content .start⟩ rest := by
  induction forest generalizing tokens with
  | nil => simp [writeForest, forestTokens]
  | cons n others ih =>
    obtain ⟨first, more⟩ := List.forall_mem_cons.1 back
    rw [writeForest, String.toList_append, List.append_assoc, first, ih more, forestTokens,
      List.append_assoc]

theorem readsBack_of_empty {name : String} {attributes : List (String × String)}
    (tag : ProperTag name attributes) : ReadsBack (.element name attributes []) := by
  intro tokens rest
  have written : (Node.element name attributes []).write.toList ++ rest =
      '<' :: (name.toList ++ ((writeAttributes attributes).toList ++ '/' :: '>' :: rest)) := by
    simp [Node.write, String.toList_append]
  rw [written]
  exact Lexer.run_emptyTag tag.named tag.attributesNamed [] rest

theorem toList_write_of_children (name : String) (attributes : List (String × String))
    (child : Node) (others : Forest) (rest : List Char) :
    (Node.element name attributes (child :: others)).write.toList ++ rest =
      '<' :: (name.toList ++ ((writeAttributes attributes).toList ++ '>' ::
        ((writeForest (child :: others)).toList ++
          '<' :: '/' :: (name.toList ++ '>' :: rest)))) := by
  simp [Node.write, String.toList_append]

theorem readsBack_of_children {name : String} {attributes : List (String × String)} {child : Node}
    {others : Forest} (tag : ProperTag name attributes)
    (back : ∀ n ∈ child :: others, ReadsBack n) :
    ReadsBack (.element name attributes (child :: others)) := by
  intro tokens rest
  rw [toList_write_of_children]
  calc Lexer.run ⟨tokens, .content .start⟩ _
      = Lexer.run ⟨tokens ++ [.startTag name attributes], .content .start⟩ _ :=
        Lexer.run_startTag tag.named tag.attributesNamed [] _
    _ = Lexer.run ⟨tokens ++ [.startTag name attributes] ++ forestTokens (child :: others),
          .content .start⟩ _ := run_writeForest back _ _
    _ = Lexer.run ⟨tokens ++ [.startTag name attributes] ++ forestTokens (child :: others) ++
          [.endTag name], .content .start⟩ rest := Lexer.run_endTag tag.named [] rest
    _ = _ := by simp [Node.tokens]

/-- The text of an element ends where the element does. -/
theorem readsBack_of_text {name value : String} {attributes : List (String × String)}
    (tag : ProperTag name attributes) (some : value ≠ "") :
    ReadsBack (.element name attributes [.text value]) := by
  intro tokens rest
  have written : (writeForest [.text value]).toList = (escape value).toList := by
    simp [writeForest, Node.write]
  rw [toList_write_of_children, written]
  calc Lexer.run ⟨tokens, .content .start⟩ _
      = Lexer.run ⟨tokens ++ [.startTag name attributes], .content .start⟩ _ :=
        Lexer.run_startTag tag.named tag.attributesNamed [] _
    _ = Lexer.run ⟨tokens ++ [.startTag name attributes], .content ⟨value.toList, none⟩⟩ _ :=
        Lexer.run_text value _
    -- The bracket of the end tag is what ends the text.
    _ = Lexer.run ⟨Lexer.flushed (tokens ++ [.startTag name attributes]) value.toList ++
          [.endTag name], .content .start⟩ rest := Lexer.run_endTag tag.named _ rest
    _ = _ := by
        rw [Lexer.flushed_text some]
        simp [Node.tokens, forestTokens]

/-- What is written of a proper element is read as its tokens. -/
theorem readsBack_of_proper {n : Node} (proper : Proper n) : ReadsBack n := by
  induction proper with
  | leaf tag some => exact readsBack_of_text tag some
  | @branch name attributes children tag _ ih =>
    cases children with
    | nil => exact readsBack_of_empty tag
    | cons child others => exact readsBack_of_children tag ih

theorem tokenize_writeForest {forest : Forest} (proper : ∀ n ∈ forest, Proper n) :
    tokenize (writeForest forest) = some (forestTokens forest) := by
  have reads := run_writeForest (fun n member => readsBack_of_proper (proper n member)) [] []
  rw [List.append_nil, List.nil_append] at reads
  rw [tokenize, Lexer.start, reads]
  rfl

/-! ## Trees -/

theorem build_forestTokens {forest : Forest}
    (back : ∀ n ∈ forest, ∀ above nodes rest,
      build above nodes (n.tokens ++ rest) = build above (nodes ++ [n]) rest)
    (above : List Frame) (nodes : Forest) (rest : List Token) :
    build above nodes (forestTokens forest ++ rest) = build above (nodes ++ forest) rest := by
  induction forest generalizing nodes with
  | nil => simp [forestTokens]
  | cons n others ih =>
    obtain ⟨first, more⟩ := List.forall_mem_cons.1 back
    rw [forestTokens, List.append_assoc, first, ih more, List.append_assoc]
    rfl

/-- The tokens of a proper element give the element. -/
theorem build_tokens {n : Node} (proper : Proper n) (above : List Frame) (nodes : Forest)
    (rest : List Token) :
    build above nodes (n.tokens ++ rest) = build above (nodes ++ [n]) rest := by
  induction proper generalizing above nodes rest with
  | leaf => simp [Node.tokens, forestTokens, build]
  | @branch name attributes children _ _ ih =>
    cases children with
    | nil => simp [Node.tokens, build]
    | cons child others =>
      -- The children are built above the open frame, which the end tag takes off again.
      have inner := build_forestTokens ih (⟨nodes, ⟨name, attributes⟩⟩ :: above) []
        (.endTag name :: rest)
      rw [Node.tokens, List.cons_append, List.append_assoc, build, List.singleton_append, inner]
      simp [build]

/-- What is written of proper elements is read as these elements. -/
theorem read_writeForest {forest : Forest} (proper : ∀ n ∈ forest, Proper n) :
    read (writeForest forest) = some forest := by
  have built := build_forestTokens (fun n member => build_tokens (proper n member)) [] [] []
  rw [List.append_nil, List.nil_append] at built
  rw [read, tokenize_writeForest proper, Option.bind_some, built]
  rfl

theorem exists_of_mem_forestTokens {forest : Forest} {t : Token}
    (member : t ∈ forestTokens forest) : ∃ n ∈ forest, t ∈ n.tokens := by
  induction forest with
  | nil => cases member
  | cons n others ih =>
    rw [forestTokens, List.mem_append] at member
    rcases member with member | member
    · exact ⟨n, List.mem_cons_self, member⟩
    · obtain ⟨n', listed, member⟩ := ih member
      exact ⟨n', List.mem_cons_of_mem n listed, member⟩

/-- No tag of a proper element has an attribute twice. -/
theorem distinct_of_mem_tokens {n : Node} (proper : Proper n) {t : Token} (member : t ∈ n.tokens) :
    (t.attributes.map (·.1)).Nodup := by
  induction proper with
  | leaf tag _ =>
    simp only [Node.tokens, forestTokens, List.append_nil, List.mem_cons, List.mem_append,
      List.not_mem_nil, or_false] at member
    rcases member with rfl | rfl | rfl
    · exact tag.distinct
    · exact List.nodup_nil
    · exact List.nodup_nil
  | @branch name attributes children tag _ ih =>
    cases children with
    | nil =>
      rw [Node.tokens, List.mem_singleton] at member
      exact member ▸ tag.distinct
    | cons child others =>
      rw [Node.tokens, List.mem_cons, List.mem_append, List.mem_singleton] at member
      rcases member with rfl | member | rfl
      · exact tag.distinct
      · obtain ⟨n, listed, member⟩ := exists_of_mem_forestTokens member
        exact ih n listed member
      · exact List.nodup_nil

/-! ## Documents -/

theorem writeDocument_of_ne_nil {forest : Forest} (some : forest ≠ []) (declared : Bool) :
    writeDocument declared forest =
      (if declared then declaration else "") ++ writeForest forest := by
  have elements : forest.isEmpty = false := List.isEmpty_eq_false_iff.2 some
  cases declared with
  | true => simp [writeDocument, elements]
  | false => simp [writeDocument, elements]

/-- A declaration is no element. -/
theorem read_declaration (s : String) : read (declaration ++ s) = none := by
  have opening : (declaration ++ s).toList = '<' :: '?' :: ((declaration ++ s).toList.drop 2) := by
    rw [String.toList_append]
    rfl
  have unread : Lexer.start.run (declaration ++ s).toList = none := by
    rw [opening]
    rfl
  rw [read, tokenize, unread]
  rfl

/-- Declared or not, a document is read as its elements alone. -/
theorem forest_of_writeDocument {declared declared' : Bool} {forest forest' : Forest}
    (proper : ∀ n ∈ forest, Proper n) (proper' : ∀ n ∈ forest', Proper n) (some : forest ≠ [])
    (some' : forest' ≠ [])
    (same : writeDocument declared forest = writeDocument declared' forest') :
    forest = forest' := by
  have reads := read_writeForest proper
  have reads' := read_writeForest proper'
  rw [writeDocument_of_ne_nil some, writeDocument_of_ne_nil some'] at same
  have texts : writeForest forest = writeForest forest' := by
    cases declared with
    | true =>
      cases declared' with
      | true =>
        have chars := congrArg String.toList same
        rw [String.toList_append, String.toList_append] at chars
        exact String.toList_inj.1 (List.append_cancel_left chars)
      | false =>
        have undeclared : declaration ++ writeForest forest = writeForest forest' := by
          simpa using same
        rw [← undeclared, read_declaration] at reads'
        cases reads'
    | false =>
      cases declared' with
      | true =>
        have undeclared : writeForest forest = declaration ++ writeForest forest' := by
          simpa using same
        rw [undeclared, read_declaration] at reads
        cases reads
      | false => simpa using same
  rw [texts, reads'] at reads
  exact (Option.some.inj reads).symm

end WireBody.Xml
