import Mathlib.Data.List.Basic
import WireBody.Command.Session
import WireBody.Proofs.Outcome

/-!
# What acts print

An act may fail behind what it has printed, so that nothing is printed by a call that fails has to be
seen from its steps and their order.  A step that prints nothing may come before any act that is
silent where it fails, and printing, which does not fail, may come anywhere behind the last step that
can.  This holds of every request, and so of every call.

Main statements: `silent_respond` and `silent_act`.
-/

set_option autoImplicit false

namespace WireBody.Command

open WireBody.Service
open WireBody.Settings

namespace Act

variable {α β : Type} {act : Act α} {next : α → Act β} {step : Except Failure α}
  {printed : ByteArray}

/-! ## Single acts -/

@[simp] theorem after_throw (f : Failure) : (throw f : Act α).after printed = (.error f, printed) :=
  rfl

@[simp] theorem after_print (content : ByteArray) :
    (print content).after printed = (.ok (), printed ++ content) := rfl

@[simp] theorem after_step : (liftM step : Act α).after printed = (step, printed) := rfl

/-- What follows goes on behind what has been printed, unless there is a failure. -/
theorem after_bind : (act >>= next).after printed =
    match act.after printed with
    | (.ok a, printed') => (next a).after printed'
    | (.error f, printed') => (.error f, printed') := by
  unfold after
  rw [ExceptT.run_bind, StateT.run_bind]
  rcases act.run.run printed with ⟨_ | _, _⟩ <;> rfl

theorem after_step_bind_eq_ok_iff {b : β} {output : ByteArray} :
    ((liftM step : Act α) >>= next).after printed = (.ok b, output) ↔
      ∃ a, step = .ok a ∧ (next a).after printed = (.ok b, output) := by
  rw [after_bind, after_step]
  cases step <;> simp

/-- What was printed before a failure stays printed. -/
example (content : ByteArray) (f : Failure) :
    (do print content; throw f : Act Unit).after .empty = (.error f, .empty ++ content) := rfl

/-! ## Acts that print nothing where they fail -/

/-- The act does not fail, whatever has been printed. -/
def Reliable (act : Act α) : Prop :=
  ∀ printed, ∃ a output, act.after printed = (.ok a, output)

/-- Where the act fails it has printed nothing. -/
def Silent (act : Act α) : Prop :=
  ∀ printed f output, act.after printed = (.error f, output) → output = printed

theorem Reliable.silent (reliable : Reliable act) : Silent act := by
  intro printed f output failed
  obtain ⟨a, output', done⟩ := reliable printed
  rw [done] at failed
  cases failed

theorem reliable_print (content : ByteArray) : Reliable (print content) :=
  fun printed => ⟨(), printed ++ content, rfl⟩

theorem Reliable.bind (first : Reliable act) (later : ∀ a, Reliable (next a)) :
    Reliable (act >>= next) := by
  intro printed
  obtain ⟨a, output, done⟩ := first printed
  rw [after_bind, done]
  exact later a output

theorem reliable_forM {γ : Type} {f : γ → Act Unit} (each : ∀ c, Reliable (f c)) (l : List γ) :
    Reliable (l.forM f) := by
  induction l with
  | nil => exact fun printed => ⟨(), printed, rfl⟩
  | cons c rest ih => exact (each c).bind fun _ => ih

theorem silent_throw (f : Failure) : Silent (throw f : Act α) := by
  intro printed f output failed
  cases failed
  rfl

/-- A step that prints nothing may fail before an act that is silent where it fails. -/
theorem Silent.step_bind (later : ∀ a, step = .ok a → Silent (next a)) :
    Silent ((liftM step : Act α) >>= next) := by
  intro printed f output failed
  rw [after_bind, after_step] at failed
  cases step with
  | error e =>
    cases failed
    rfl
  | ok a => exact later a rfl printed f output failed

end Act

open Act

/-! ## Requests and calls -/

/-- An operation without a program does not end a listing. -/
theorem reliable_printListing (g : Graph) : Reliable (printListing g) :=
  reliable_forM (fun o => reliable_print (operationLine g o).toUTF8) g.operations.values

/-- A request that fails has printed nothing: each of its steps that can fail comes before what it
prints. -/
theorem silent_respond (config : Config) (files : Files) (request : Command.Request) :
    Silent (respond config files request) := by
  cases request with
  | operations model =>
    refine .step_bind fun g _ => ?_
    exact (reliable_printListing g).silent
  | compile model operation =>
    refine .step_bind fun g _ => .step_bind fun p _ => ?_
    exact (reliable_print _).silent
  | serialize model operation input declared =>
    refine .step_bind fun g _ => .step_bind fun p _ => .step_bind fun request _ =>
      .step_bind fun _ _ => .step_bind fun content _ => ?_
    exact (reliable_print content).silent

/-- A call that fails has printed nothing. -/
theorem silent_act (lib : Libraries) (files : Files) (environment : Environment)
    (arguments : List String) : Silent (act lib files environment arguments) := by
  unfold act
  cases lib.parse arguments with
  | misused reason => exact silent_throw (.misused reason)
  | shown text => exact (reliable_print text.toUTF8).silent
  | asked request => exact .step_bind fun config _ => silent_respond config files request

end WireBody.Command
