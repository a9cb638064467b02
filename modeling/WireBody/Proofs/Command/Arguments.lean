import Mathlib.Data.List.Basic
import WireBody.Command.Arguments
import WireBody.Proofs.Outcome

/-!
# How calls are spelled

The arguments behind `serialize` are two operands with the options among them, in any order.
Whatever order that is, a parser has to understand the call; any operation can be asked for behind
the mark that ends the options; and what is to be listed is in a file that has a name.  What is said
of calls holds for every parser that does so, and `parseArguments` is one.

Main definition: `Understands`.  Main statement: `understands_parseArguments`.
-/

set_option autoImplicit false

namespace WireBody.Command

/-! ## Operands and options -/

/-- An argument that is no option: it does not begin with a dash, or is nothing else. -/
def IsOperand (a : String) : Prop := a = "-" ∨ a.toList.head? ≠ some '-'

/-- An operand that can name a file. -/
def IsPath (a : String) : Prop := IsOperand a ∧ a ≠ ""

/-- The arguments behind `serialize` that give some operands, perhaps the file of a request, and
perhaps the option without a value. -/
inductive Spells : List String → List String → Option String → Bool → Prop
  | nil : Spells [] [] none false
  | operand {a : String} {rest operands : List String} {input : Option String} {off : Bool} :
      IsOperand a → Spells rest operands input off →
      Spells (a :: rest) (a :: operands) input off
  | input {path : String} {rest operands : List String} {off : Bool} :
      IsPath path → Spells rest operands none off →
      Spells ("--input" :: path :: rest) operands (some path) off
  | noDeclaration {rest operands : List String} {input : Option String} :
      Spells rest operands input false → Spells ("--no-declaration" :: rest) operands input true

/-- What calls rely on in a parser of arguments. -/
structure Understands (parse : Parser) : Prop where
  /-- Operands and options may come in any order. -/
  serialize : ∀ {arguments : List String} {model operation : String} {input : Option String}
    {off : Bool}, Spells arguments [model, operation] input off → model ≠ "" →
      parse ("serialize" :: arguments) = .asked (.serialize model operation input (!off))
  /-- Whatever an operation is called, its program can be asked for. -/
  compile : ∀ {model : String}, model ≠ "" → ∀ operation : String,
    parse ["compile", "--", model, operation] = .asked (.compile model operation)
  /-- The name of a file is not empty. -/
  named : ∀ {arguments : List String} {model : String},
    parse arguments = .asked (.operations model) → model ≠ ""

namespace Given

variable {s : Subcommand} {g g' : Given} {a : String}

/-! ## Single arguments -/

theorem addOperand_of_room (room : g.operands.length < s.arity)
    (named : g.operands = [] → a ≠ "") :
    g.addOperand s a = .ok { g with operands := a :: g.operands } := by
  have less : g.operands.length ≠ s.arity := Nat.ne_of_lt room
  rw [addOperand, if_neg]
  simpa [less] using named

theorem cases_of_isOperand (operand : IsOperand a) :
    a.toList = ['-'] ∨ ∀ rest, a.toList ≠ '-' :: rest := by
  rcases operand with rfl | other
  · exact .inl rfl
  · refine .inr fun rest eq => other ?_
    rw [eq, List.head?_cons]

/-- An operand is the value that is waited for, or else stands for itself. -/
theorem add_of_isOperand (operand : IsOperand a) (more : g.ended = false) :
    g.add s a = if g.awaitsInput then g.setInput a else g.addOperand s a := by
  rcases cases_of_isOperand operand with dash | other
  · cases waits : g.awaitsInput <;> simp only [add, more, waits, dash] <;> rfl
  · cases chars : a.toList with
    | nil => cases waits : g.awaitsInput <;> simp only [add, more, waits, chars] <;> rfl
    | cons c rest =>
      have noDash : c ≠ '-' := fun dash => other rest (dash ▸ chars)
      unfold add
      rw [more, chars]
      cases waits : g.awaitsInput
      · split <;> simp_all
      · split <;> simp_all

theorem add_input (more : g.ended = false) (free : g.awaitsInput = false) :
    g.add .serialize "--input" = g.awaitInput := by
  have chars : "--input".toList = ['-', '-', 'i', 'n', 'p', 'u', 't'] := rfl
  simp only [add, more, free, chars]
  rfl

theorem add_noDeclaration (more : g.ended = false) (free : g.awaitsInput = false) :
    g.add .serialize "--no-declaration" = g.setNoDeclaration := by
  have chars : "--no-declaration".toList =
    ['-', '-', 'n', 'o', '-', 'd', 'e', 'c', 'l', 'a', 'r', 'a', 't', 'i', 'o', 'n'] := rfl
  simp only [add, more, free, chars]
  rfl

/-- The first operand has a name. -/
def Named (g : Given) : Prop := g.operands.getLast? ≠ some ""

theorem named_addOperand (named : g.Named) (added : g.addOperand s a = .ok g') : g'.Named := by
  unfold addOperand at added
  split at added
  · cases added
  · rename_i fits
    cases added
    cases operands : g.operands with
    | nil => simpa [Named, operands] using fun empty => fits (by simp [operands, empty])
    | cons b rest => simpa [Named, operands] using named

theorem named_setInput (named : g.Named) (added : g.setInput a = .ok g') : g'.Named := by
  unfold setInput at added
  split at added
  · cases added
  · cases added
    exact named

theorem named_awaitInput (named : g.Named) (added : g.awaitInput = .ok g') : g'.Named := by
  unfold awaitInput at added
  split at added
  · cases added
  · cases added
    exact named

theorem named_setNoDeclaration (named : g.Named) (added : g.setNoDeclaration = .ok g') :
    g'.Named := by
  unfold setNoDeclaration at added
  split at added
  · cases added
  · cases added
    exact named

theorem named_addLong {body : List Char} (named : g.Named) (added : g.addLong s body = .ok g') :
    g'.Named := by
  unfold addLong at added
  repeat' split at added
  all_goals first
    | cases added
    | exact named_awaitInput named added
    | exact named_setNoDeclaration named added
    | exact named_setInput named added

theorem named_addShort {body : List Char} (named : g.Named) (added : g.addShort s body = .ok g') :
    g'.Named := by
  unfold addShort at added
  split at added
  · cases added
  · exact named_awaitInput named added
  · exact named_setInput named added
  · exact named_setInput named added
  · cases added

theorem named_add (named : g.Named) (added : g.add s a = .ok g') : g'.Named := by
  unfold add at added
  split at added
  · exact named_addOperand named added
  · exact named_setInput named added
  · cases added
  · exact named_setInput named added
  · cases added
    exact named
  · exact named_addOperand named added
  · exact named_addLong named added
  · exact named_addShort named added
  · exact named_addOperand named added

/-! ## All arguments -/

/-- No argument takes the name from the first operand. -/
theorem named_foldlM_add {arguments : List String} (named : g.Named)
    (taken : arguments.foldlM (add s) g = .ok g') : g'.Named := by
  induction arguments generalizing g with
  | nil =>
    cases taken
    exact named
  | cons a rest ih =>
    obtain ⟨next, added, others⟩ := bind_eq_ok_iff.1 taken
    exact ih (named_add named added) others

/-- Taking arguments one after the other leaves what they spell. -/
theorem foldlM_add_of_spells {arguments operands : List String} {input : Option String} {off : Bool}
    (spelled : Spells arguments operands input off) (more : g.ended = false)
    (free : g.awaitsInput = false) (noInput : input.isSome = true → g.input = .none)
    (noOption : off = true → g.noDeclaration = false)
    (room : g.operands.length + operands.length ≤ 2)
    (named : g.operands = [] → operands.head? ≠ some "") :
    arguments.foldlM (add .serialize) g = .ok
      ⟨operands.reverse ++ g.operands, input.or g.input, off || g.noDeclaration, false, false⟩ := by
  induction spelled generalizing g with
  | nil =>
    cases g
    cases more
    cases free
    rfl
  | @operand a rest operands input off operand _ ih =>
    rw [List.length_cons] at room
    have fits : g.operands.length < Subcommand.serialize.arity :=
      Nat.lt_of_lt_of_le (Nat.lt_add_of_pos_right (Nat.succ_pos _)) room
    have first : g.add .serialize a = .ok { g with operands := a :: g.operands } := by
      rw [add_of_isOperand operand more, if_neg (by rw [free]; exact Bool.false_ne_true)]
      exact addOperand_of_room fits fun none => by simpa using named none
    have others := ih (g := { g with operands := a :: g.operands }) more free noInput noOption
      (by simpa [Nat.add_right_comm, Nat.add_assoc] using room) nofun
    rw [List.foldlM_cons, first, List.reverse_cons, List.append_assoc]
    exact others
  | @input path rest operands off valid _ ih =>
    have none : g.input = .none := noInput rfl
    have first : g.add .serialize "--input" = .ok { g with awaitsInput := true } := by
      rw [add_input more free, awaitInput, none]
      rfl
    have second : add .serialize { g with awaitsInput := true } path =
        .ok { g with input := some path, awaitsInput := false } := by
      have taken := add_of_isOperand (s := .serialize) (g := { g with awaitsInput := true }) valid.1
        more
      have full : path.isEmpty = false := by simpa using valid.2
      rw [taken, if_pos rfl, setInput]
      simp only [none, full]
      rfl
    have others := ih (g := { g with input := some path, awaitsInput := false }) more rfl nofun
      noOption room named
    rw [List.foldlM_cons, first]
    change List.foldlM (add .serialize) _ (path :: rest) = _
    rw [List.foldlM_cons, second]
    exact others
  | @noDeclaration rest operands input _ ih =>
    have first : g.add .serialize "--no-declaration" = .ok { g with noDeclaration := true } := by
      rw [add_noDeclaration more free, setNoDeclaration, noOption rfl]
      rfl
    have others := ih (g := { g with noDeclaration := true }) more free noInput nofun room named
    rw [List.foldlM_cons, first]
    exact others

end Given

/-! ## Calls -/

theorem requestOf_of_spells {arguments : List String} {model operation : String}
    {input : Option String} {off : Bool}
    (spelled : Spells arguments [model, operation] input off) (named : model ≠ "") :
    requestOf .serialize arguments = .ok (.serialize model operation input (!off)) := by
  have taken : arguments.foldlM (Given.add .serialize) .none =
      .ok ⟨[operation, model], input, off, false, false⟩ := by
    rw [Given.foldlM_add_of_spells (g := .none) spelled rfl rfl (fun _ => rfl) (fun _ => rfl)
      (Nat.le_refl 2) fun _ => by simpa using named]
    simp [Given.none]
  simp only [requestOf, taken, Given.request?]
  rfl

theorem requestOf_compile {model : String} (named : model ≠ "") (operation : String) :
    requestOf .compile ["--", model, operation] = .ok (.compile model operation) := by
  have ended : Given.none.add .compile "--" = .ok { Given.none with ended := true } := rfl
  have first : Given.add .compile { Given.none with ended := true } model =
      .ok ⟨[model], .none, false, false, true⟩ :=
    Given.addOperand_of_room (by decide) fun _ => named
  have second : Given.add .compile ⟨[model], .none, false, false, true⟩ operation =
      .ok ⟨[operation, model], .none, false, false, true⟩ :=
    Given.addOperand_of_room (Nat.lt_succ_self 1) nofun
  have taken : ["--", model, operation].foldlM (Given.add .compile) .none =
      .ok ⟨[operation, model], .none, false, false, true⟩ := by
    simp only [List.foldlM_cons, List.foldlM_nil, ended, ok_bind, first, second, pure_eq_ok]
  simp only [requestOf, taken, Given.request?]
  rfl

theorem operands_of_request? {s : Subcommand} {g : Given} {model : String}
    (found : g.request? s = some (.operations model)) : g.operands = [model] := by
  unfold Given.request? at found
  split at found
  · cases found
  · split at found
    · rename_i operands
      cases found
      exact operands
    all_goals cases found

/-- Only a file that has a name is listed. -/
theorem ne_empty_of_requestOf {s : Subcommand} {arguments : List String} {model : String}
    (asked : requestOf s arguments = .ok (.operations model)) : model ≠ "" := by
  unfold requestOf at asked
  split at asked
  · cases asked
  · rename_i g taken
    have named : g.Named := Given.named_foldlM_add (g := .none) nofun taken
    split at asked
    · rename_i request found
      cases asked
      rintro rfl
      exact named (by rw [operands_of_request? found]; rfl)
    · cases asked

/-- This parser understands calls, whatever it says in its own words. -/
theorem understands_parseArguments (texts : Texts) : Understands (parseArguments texts) := by
  constructor
  · intro arguments model operation input off spelled named
    have known : Subcommand.ofName? "serialize" = some .serialize := rfl
    simp only [parseArguments, known, requestOf_of_spells spelled named]
  · intro model named operation
    have known : Subcommand.ofName? "compile" = some .compile := rfl
    simp only [parseArguments, known, requestOf_compile named operation]
  · intro arguments model asked
    unfold parseArguments at asked
    split at asked
    · cases asked
    · split at asked
      · split at asked
        · rename_i request taken
          cases asked
          exact ne_empty_of_requestOf taken
        · cases asked
        · cases asked
      -- Nothing but a subcommand asks for a listing.
      · repeat' split at asked
        all_goals cases asked

end WireBody.Command
