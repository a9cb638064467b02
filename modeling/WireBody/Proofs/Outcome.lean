import Mathlib.Data.List.Forall2

/-!
# When composed steps succeed

Compiling and running are chains of steps that may each fail.  These lemmas take a chain that
succeeded apart into the successes of its steps, and one that failed into the step that did.
-/

set_option autoImplicit false

namespace WireBody

variable {ε α β : Type}

@[simp] theorem pure_eq_ok (a : α) : (pure a : Except ε α) = .ok a := rfl

@[simp] theorem ok_bind (a : α) (f : α → Except ε β) : (Except.ok a >>= f) = f a := rfl

@[simp] theorem error_bind (e : ε) (f : α → Except ε β) : (Except.error e >>= f) = .error e := rfl

/-- A chain succeeds when its first step does, and the rest with what that gives. -/
theorem bind_eq_ok_iff {x : Except ε α} {f : α → Except ε β} {b : β} :
    (x >>= f) = .ok b ↔ ∃ a, x = .ok a ∧ f a = .ok b := by
  cases x with
  | error e => simp
  | ok a => simp

/-- Two checks pass when each of them does. -/
theorem then_eq_ok_iff {x : Except ε Unit} {y : Except ε β} {b : β} :
    (x >>= fun _ => y) = .ok b ↔ x = .ok () ∧ y = .ok b := by
  cases x with
  | error e => simp
  | ok a => simp

theorem map_eq_ok_iff {x : Except ε α} {f : α → β} {b : β} :
    x.map f = .ok b ↔ ∃ a, x = .ok a ∧ f a = b := by
  cases x with
  | error e => simp [Except.map]
  | ok a => simp [Except.map]

/-- A step whose result is only worked on further. -/
theorem return_eq_map {x : Except ε α} {f : α → β} : (do let a ← x; return f a) = x.map f := by
  cases x <;> rfl

/-- What is done with the result of a chain is done with that of its last step. -/
theorem map_bind_eq {γ : Type} {x : Except ε α} {k : α → Except ε β} {f : β → γ} :
    (x >>= k).map f = x >>= fun a => (k a).map f := by
  cases x <;> rfl

/-- A chain fails when its first step does, or the rest with what that gives. -/
theorem bind_eq_error_iff {x : Except ε α} {f : α → Except ε β} {e : ε} :
    (x >>= f) = .error e ↔ x = .error e ∨ ∃ a, x = .ok a ∧ f a = .error e := by
  cases x with
  | error e => simp
  | ok a => simp

theorem map_eq_error_iff {x : Except ε α} {f : α → β} {e : ε} :
    x.map f = .error e ↔ x = .error e := by
  cases x with
  | error e => simp [Except.map]
  | ok a => simp [Except.map]

theorem mapError_eq_ok_iff {δ : Type} {x : Except ε α} {f : ε → δ} {a : α} :
    x.mapError f = .ok a ↔ x = .ok a := by
  cases x with
  | error e => simp [Except.mapError]
  | ok b => simp [Except.mapError]

/-- A step taken along a list succeeds when it succeeds on every member. -/
theorem mapM_eq_ok_iff {f : α → Except ε β} {l : List α} {r : List β} :
    l.mapM f = .ok r ↔ List.Forall₂ (fun a b => f a = .ok b) l r := by
  induction l generalizing r with
  | nil =>
    rw [List.mapM_nil, List.forall₂_nil_left_iff, pure_eq_ok, Except.ok.injEq]
    exact eq_comm
  | cons a rest ih =>
    rw [List.mapM_cons, bind_eq_ok_iff, List.forall₂_cons_left_iff]
    constructor
    · rintro ⟨b, first, others⟩
      obtain ⟨bs, others, same⟩ := bind_eq_ok_iff.1 others
      exact ⟨b, bs, first, ih.1 others, (Except.ok.inj same).symm⟩
    · rintro ⟨b, bs, first, others, rfl⟩
      exact ⟨b, first, bind_eq_ok_iff.2 ⟨bs, ih.2 others, rfl⟩⟩

/-- The same of a step that gives a value or none. -/
theorem mapM_eq_some_iff {f : α → Option β} {l : List α} {r : List β} :
    l.mapM f = some r ↔ List.Forall₂ (fun a b => f a = some b) l r := by
  induction l generalizing r with
  | nil =>
    rw [List.mapM_nil, List.forall₂_nil_left_iff, Option.pure_def, Option.some.injEq]
    exact eq_comm
  | cons a rest ih =>
    simp only [List.mapM_cons, List.forall₂_cons_left_iff, Option.bind_eq_bind,
      Option.bind_eq_some_iff, Option.pure_def, Option.some.injEq, ih]
    constructor
    · rintro ⟨b, first, bs, others, rfl⟩
      exact ⟨b, bs, first, others, rfl⟩
    · rintro ⟨b, bs, first, others, rfl⟩
      exact ⟨b, first, bs, others, rfl⟩

/-- Two steps that do the same on each member of a list do the same along it. -/
theorem mapM_congr {f g : α → Except ε β} {l : List α} (same : ∀ a ∈ l, f a = g a) :
    l.mapM f = l.mapM g := by
  induction l with
  | nil => rfl
  | cons a rest ih =>
    obtain ⟨first, others⟩ := List.forall_mem_cons.1 same
    rw [List.mapM_cons, List.mapM_cons, first, ih others]

/-- Chains come to the same if what the rest of them uses of the first step is the same. -/
theorem bind_congr_of_map {γ : Type} {x x' : Except ε α} {f : α → β}
    {k k' : α → Except ε γ} (same : x.map f = x'.map f) (each : ∀ a a', f a = f a' → k a = k' a') :
    (x >>= k) = (x' >>= k') := by
  cases x with
  | error e =>
    cases x' with
    | error e' =>
      cases same
      rfl
    | ok a => cases same
  | ok a =>
    cases x' with
    | error e => cases same
    | ok a' => exact each a a' (Except.ok.inj same)

/-- A step does the same along lists that differ where it does the same. -/
theorem mapM_replace {f : α → Except ε β} {before after : List α} {a a' : α} (same : f a = f a') :
    (before ++ a :: after).mapM f = (before ++ a' :: after).mapM f := by
  rw [List.mapM_append, List.mapM_append, List.mapM_cons, List.mapM_cons, same]

/-- A step taken along a list fails on the first member that it fails on. -/
theorem exists_split_of_mapM_eq_error {f : α → Except ε β} {l : List α} {e : ε}
    (failed : l.mapM f = .error e) :
    ∃ before a after, l = before ++ a :: after ∧ (∀ b ∈ before, ∃ c, f b = .ok c) ∧
      f a = .error e := by
  induction l with
  | nil => cases failed
  | cons first rest ih =>
    rw [List.mapM_cons, bind_eq_error_iff] at failed
    rcases failed with here | ⟨b, passed, later⟩
    · exact ⟨[], first, rest, rfl, nofun, here⟩
    · rcases bind_eq_error_iff.1 later with later | ⟨bs, -, impossible⟩
      · obtain ⟨before, a, after, rfl, passes, failed⟩ := ih later
        exact ⟨first :: before, a, after, rfl, List.forall_mem_cons.2 ⟨⟨b, passed⟩, passes⟩, failed⟩
      · cases impossible

theorem exists_of_mapM_eq_error {f : α → Except ε β} {l : List α} {e : ε}
    (failed : l.mapM f = .error e) : ∃ a ∈ l, f a = .error e := by
  obtain ⟨before, a, after, rfl, -, failed⟩ := exists_split_of_mapM_eq_error failed
  exact ⟨a, List.mem_append_right before List.mem_cons_self, failed⟩

/-- A check along a list passes when it passes on every member. -/
theorem forM_eq_ok_iff {f : α → Except ε Unit} {l : List α} :
    l.forM f = .ok () ↔ ∀ a ∈ l, f a = .ok () := by
  induction l with
  | nil => simp
  | cons a rest ih =>
    have unfolded : (a :: rest).forM f = (f a >>= fun _ => rest.forM f) := rfl
    rw [unfolded, List.forall_mem_cons, ← ih, bind_eq_ok_iff]
    exact ⟨fun ⟨_, first, others⟩ => ⟨first, others⟩, fun ⟨first, others⟩ => ⟨(), first, others⟩⟩

/-- A check along a list fails with the first member that fails it. -/
theorem forM_eq_error_iff {f : α → Except ε Unit} {l : List α} {e : ε} :
    l.forM f = .error e ↔ ∃ before a after, l = before ++ a :: after ∧
      (∀ b ∈ before, f b = .ok ()) ∧ f a = .error e := by
  induction l with
  | nil =>
    refine iff_of_false nofun ?_
    rintro ⟨before, a, after, split, -⟩
    exact List.append_ne_nil_of_right_ne_nil before (List.cons_ne_nil a after) split.symm
  | cons first rest ih =>
    have unfolded : (first :: rest).forM f = (f first >>= fun _ => rest.forM f) := rfl
    rw [unfolded, bind_eq_error_iff, ih]
    constructor
    · rintro (failed | ⟨⟨⟩, passed, before, a, after, rfl, passes, failed⟩)
      · exact ⟨[], first, rest, rfl, nofun, failed⟩
      · exact ⟨first :: before, a, after, rfl, List.forall_mem_cons.2 ⟨passed, passes⟩, failed⟩
    · rintro ⟨before, a, after, split, passes, failed⟩
      cases before with
      | nil =>
        cases split
        exact .inl failed
      | cons b before =>
        cases split
        obtain ⟨passed, passes⟩ := List.forall_mem_cons.1 passes
        exact .inr ⟨(), passed, before, a, after, rfl, passes, failed⟩

/-! ## Whether steps succeed -/

theorem map_ok_iff {x : Except ε α} {f : α → β} :
    (∃ b, x.map f = .ok b) ↔ ∃ a, x = .ok a := by
  cases x <;> simp [Except.map]

theorem bind_ok_iff {x : Except ε α} {f : α → Except ε β} :
    (∃ b, (x >>= f) = .ok b) ↔ ∃ a, x = .ok a ∧ ∃ b, f a = .ok b := by
  cases x <;> simp

theorem return_ok_iff {x : Except ε α} {f : α → β} :
    (∃ b, (do let a ← x; return f a) = .ok b) ↔ ∃ a, x = .ok a := by
  cases x <;> simp

/-- Two steps succeed together when each of them does. -/
theorem both_ok_iff {γ : Type} {x : Except ε α} {y : Except ε β} {f : α → β → γ} :
    (∃ c, (do let a ← x; let b ← y; return f a b) = .ok c) ↔
      (∃ a, x = .ok a) ∧ ∃ b, y = .ok b := by
  cases x with
  | error e => simp
  | ok a => cases y <;> simp

theorem both_eq_ok_iff {γ : Type} {x : Except ε α} {y : Except ε β} {f : α → β → γ} {c : γ} :
    (do let a ← x; let b ← y; return f a b) = .ok c ↔
      ∃ a b, x = .ok a ∧ y = .ok b ∧ c = f a b := by
  cases x with
  | error e => simp
  | ok a => cases y <;> simp [eq_comm]

theorem mapM_ok_iff {f : α → Except ε β} {l : List α} :
    (∃ r, l.mapM f = .ok r) ↔ ∀ a ∈ l, ∃ b, f a = .ok b := by
  induction l with
  | nil => simp
  | cons a rest ih =>
    rw [List.forall_mem_cons, ← ih, List.mapM_cons]
    exact both_ok_iff

theorem mapError_ok_iff {δ : Type} {x : Except ε α} {f : ε → δ} :
    (∃ a, x.mapError f = .ok a) ↔ ∃ a, x = .ok a := by
  cases x <;> simp [Except.mapError]

/-! ## The same result, or none -/

theorem toOption_map_congr {x y : Except ε α} {f : α → β} (same : x.toOption = y.toOption) :
    (x.map f).toOption = (y.map f).toOption := by
  cases x <;> cases y <;> cases same <;> rfl

/-- Chains come to the same, or fail both, if their parts do. -/
theorem toOption_bind_congr {x y : Except ε α} {f g : α → Except ε β}
    (same : x.toOption = y.toOption) (each : ∀ a, (f a).toOption = (g a).toOption) :
    (x >>= f).toOption = (y >>= g).toOption := by
  cases x with
  | error e =>
    cases y with
    | error e' => rfl
    | ok b => cases same
  | ok a =>
    cases y with
    | error e' => cases same
    | ok b =>
      cases same
      exact each a

theorem toOption_both_congr {γ : Type} {x x' : Except ε α} {y y' : Except ε β} {f : α → β → γ}
    (first : x.toOption = x'.toOption) (second : y.toOption = y'.toOption) :
    (do let a ← x; let b ← y; return f a b : Except ε γ).toOption =
      (do let a ← x'; let b ← y'; return f a b : Except ε γ).toOption :=
  toOption_bind_congr first fun _ => toOption_bind_congr second fun _ => rfl

/-! ## Lists side by side -/

theorem exists_of_mem_left {R : α → β → Prop} {l : List α} {r : List β} {a : α}
    (related : List.Forall₂ R l r) (member : a ∈ l) : ∃ b ∈ r, R a b := by
  induction related with
  | nil => cases member
  | cons first _ ih =>
    rcases List.mem_cons.1 member with rfl | member
    · exact ⟨_, List.mem_cons_self, first⟩
    · obtain ⟨b, listed, pair⟩ := ih member
      exact ⟨b, List.mem_cons_of_mem _ listed, pair⟩

theorem exists_of_mem_right {R : α → β → Prop} {l : List α} {r : List β} {b : β}
    (related : List.Forall₂ R l r) (member : b ∈ r) : ∃ a ∈ l, R a b :=
  exists_of_mem_left related.flip member

theorem getElem?_of_forall₂ {R : α → β → Prop} {l : List α} {r : List β}
    (related : List.Forall₂ R l r) {i : Nat} {a : α} (found : l[i]? = some a) :
    ∃ b, r[i]? = some b ∧ R a b := by
  induction related generalizing i with
  | nil => cases found
  | cons first _ ih =>
    cases i with
    | zero =>
      cases found
      exact ⟨_, rfl, first⟩
    | succ i => exact ih found

end WireBody
