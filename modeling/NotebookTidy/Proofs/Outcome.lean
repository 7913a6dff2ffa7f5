import NotebookTidy.Cleaner
import NotebookTidy.Proofs.Failing

/-! What comes of an attempt, apart from the files and the events it leaves behind.

One attempt after another comes to what the second one comes to, among the files that the
first one left, or to the failure of the first (`outcome_bind`), and it does not matter how
attempts are grouped (`bind_assoc`). A formatter that makes the
same of the same code among any files computes a function of the code; a cleaner whose
formatters do, and whose probe always gives the same answer, computes with these. -/
namespace NotebookTidy
open Files

namespace Attempt
variable {α β : Type}

theorem outcome_bind (x : Attempt α) (g : α → Attempt β) (t : Tree) :
    ((x >>= g).run t).outcome =
      (x.run t).outcome.bind fun a => ((g a).run (x.run t).tree).outcome := by
  cases h : (x.run t).outcome with
  | error e =>
    rw [run_bind_of_error h]
    rfl
  | ok a =>
    rw [run_bind_of_ok h]
    rfl

theorem outcome_bind_eq_ok_iff {x : Attempt α} {g : α → Attempt β} {t : Tree} {b : β} :
    ((x >>= g).run t).outcome = .ok b ↔
      ∃ a, (x.run t).outcome = .ok a ∧ ((g a).run (x.run t).tree).outcome = .ok b := by
  rw [outcome_bind]
  cases (x.run t).outcome <;> simp [Except.bind]

theorem outcome_map_map {γ : Type} (outcome : Except Failure α) (f : α → β) (g : β → γ) :
    (outcome.map f).map g = outcome.map fun a => g (f a) := by
  cases outcome <;> rfl

/-- What is made of a result changes neither the files nor the events. -/
theorem run_bind_pure (x : Attempt α) (f : α → β) (t : Tree) :
    (x >>= fun a => pure (f a)).run t =
      ⟨(x.run t).tree, (x.run t).events, (x.run t).outcome.map f⟩ := by
  cases h : (x.run t).outcome with
  | error e =>
    rw [run_bind_of_error h]
    rfl
  | ok a =>
    rw [run_bind_of_ok h, run_pure, List.append_nil]
    rfl

theorem bind_assoc {γ : Type} (x : Attempt α) (f : α → Attempt β) (g : β → Attempt γ) :
    (x >>= f) >>= g = x >>= fun a => f a >>= g := by
  have hrun : ∀ t, ((x >>= f) >>= g).run t = (x >>= fun a => f a >>= g).run t := by
    intro t
    cases hx : (x.run t).outcome with
    | error e =>
      have hxf := run_bind_of_error hx f
      rw [run_bind_of_error (by rw [hxf]) g, hxf, run_bind_of_error hx fun a => f a >>= g]
    | ok a =>
      have hxf := run_bind_of_ok hx f
      rw [run_bind_of_ok hx fun a => f a >>= g]
      cases hf : ((f a).run (x.run t).tree).outcome with
      | error e =>
        rw [run_bind_of_error (by rw [hxf]; exact hf) g, hxf, run_bind_of_error hf g]
      | ok b =>
        rw [run_bind_of_ok (by rw [hxf]; exact hf) g, hxf, run_bind_of_ok hf g]
        simp only [List.append_assoc]
  exact congrArg Attempt.mk (funext hrun)

theorem outcome_of (o : Except Failure α) (t : Tree) : ((of o).run t).outcome = o := rfl

theorem outcome_pure (a : α) (t : Tree) : ((pure a : Attempt α).run t).outcome = .ok a := rfl

theorem outcome_caught (x : Attempt α) (t : Tree) :
    (x.caught.run t).outcome = .ok (x.run t).outcome := rfl

theorem outcome_tell (e : Event) (t : Tree) : ((tell e).run t).outcome = .ok () := rfl

end Attempt

namespace Formatter

/-- What a formatter makes of code among some files. -/
def among (φ : Formatter) (t : Tree) (code : String) : Except Failure String :=
  ((φ code).run t).outcome

/-- What comes of code depends on nothing but the code. -/
def Computes (φ : Formatter) (f : String → Except Failure String) : Prop :=
  ∀ t, φ.among t = f

theorem computes_ofFunction (f : String → Except Failure String) : (ofFunction f).Computes f :=
  fun _ => rfl

end Formatter

namespace Cleaner

/-- A cleaner whose formatters compute functions, and whose probe has one answer. -/
structure Computes (c : Cleaner) (python julia : String → Except Failure String)
    (available : Bool) : Prop where
  python : c.python.Computes python
  julia : c.julia.Computes julia
  probe : ∀ t, (c.probe.run t).outcome = .ok available

/-- The cleaner of two functions and an answer. -/
def ofFunctions (python julia : String → Except Failure String) (available : Bool) : Cleaner :=
  ⟨.ofFunction python, .ofFunction julia, pure available⟩

theorem computes_ofFunctions (python julia : String → Except Failure String) (available : Bool) :
    (ofFunctions python julia available).Computes python julia available :=
  ⟨Formatter.computes_ofFunction python, Formatter.computes_ofFunction julia, fun _ => rfl⟩

end Cleaner
end NotebookTidy
