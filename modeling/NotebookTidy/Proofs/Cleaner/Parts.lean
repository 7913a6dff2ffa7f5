import NotebookTidy.Job

/-! What cleaning has because its parts have it.

A property of attempts composes when it goes over to all that is made of attempts which have it
(`Attempt.Composes`). Cells and scripts are cleaned with such a property if the formatter has it
(`Composes.cleanCells`, `Composes.formatScript`), and the formatters of a config have it if
starting a program has it (`Composes.formatters`). What is told about the toolchain is left out: it
depends on the property what comes of that. -/
namespace NotebookTidy
open Json

/-- What is told when the toolchain is asked about. -/
def Event.OfProbe : Event → Prop
  | .toolchainAsked => True
  | .probeFinished _ _ => True
  | .probeNotStarted _ _ => True
  | _ => False

/-- A property that goes over to all that is made of attempts which have it. -/
structure Attempt.Composes (P : ∀ {α : Type}, Attempt α → Prop) : Prop where
  of : ∀ {α : Type} (o : Except Failure α), P (.of o)
  tell : ∀ {e : Event}, ¬ e.OfProbe → P (.tell e)
  caught : ∀ {α : Type} {x : Attempt α}, P x → P x.caught
  bind : ∀ {α β : Type} {x : Attempt α} {f : α → Attempt β}, P x → (∀ a, P (f a)) → P (x >>= f)

namespace Attempt.Composes
variable {P : ∀ {α : Type}, Attempt α → Prop} (hP : Composes P)
include hP

theorem pure {α : Type} (a : α) : P (Pure.pure a : Attempt α) := hP.of (.ok a)

theorem map {α β : Type} {x : Attempt α} (h : P x) (f : α → β) :
    P (x >>= fun a => Pure.pure (f a)) := hP.bind h fun a => hP.pure (f a)

/-! ### Cells and scripts -/

section
variable {φ : Formatter} (hφ : ∀ code, P (φ code))
include hφ

theorem tidy (cell : Value) : P (Cell.tidy (some φ) cell) := by
  cases cell with
  | object ms =>
    cases h : (Cell.strip ms).get? "cell_type" with
    | none =>
      simp only [Cell.tidy, h]
      exact hP.of _
    | some cellType =>
      simp only [Cell.tidy, h]
      split
      · exact hP.map (hP.map (hφ _) _) _
      · exact hP.pure _
  | _ => exact hP.of _

theorem visit (tally : Tally) (cell : Value) : P (tally.visit (some φ) cell) := by
  refine hP.bind (hP.caught (hP.tidy hφ cell)) fun result => ?_
  split
  · exact hP.bind (hP.tell id) fun _ => hP.pure _
  · exact hP.pure _

theorem visitAll (tally : Tally) (cells : List Value) : P (tally.visitAll (some φ) cells) := by
  induction cells generalizing tally with
  | nil => exact hP.pure _
  | cons cell cells ih =>
    refine hP.bind (hP.visit hφ tally cell) fun visited => ?_
    refine hP.bind (hP.of _) fun kept => ?_
    exact hP.map (ih _) _

theorem cleanCells (language : String) (document : Value) :
    P (Cleaner.cleanCells φ language document) := by
  refine hP.bind (hP.of _) fun cells => ?_
  refine hP.bind (hP.visitAll hφ _ cells) fun _ => ?_
  exact hP.bind (hP.tell id) fun _ => hP.pure _

end

theorem formatScript {c : Cleaner} (hc : ∀ code, P (c.python code)) (code : String) :
    P (c.formatScript code) := hP.map (hc code) _

/-! ### Formatters made of programs -/

theorem inOrder {fs : List Formatter} (hfs : ∀ f ∈ fs, ∀ code, P (f code)) (code : String) :
    P (Formatter.inOrder fs code) := by
  induction fs generalizing code with
  | nil => exact hP.pure code
  | cons f fs ih =>
    obtain ⟨hf, hfs⟩ := List.forall_mem_cons.mp hfs
    exact hP.bind (hf code) fun formatted => ih hfs formatted

theorem trimmed {f : Formatter} (hf : ∀ code, P (f code)) (code : String) :
    P (Formatter.trimmed f code) := by
  unfold Formatter.trimmed
  split
  · exact hP.pure _
  · exact hP.map (hf code) _

theorem masked {f : Formatter} (hf : ∀ code, P (f code)) (code : String) :
    P (Formatter.masked f code) := hP.map (hf _) _

section
variable {run : Runner} (hstart : ∀ command streams, P (.start run command streams))
include hstart

theorem formatter (command : Command) (code : String) : P (Formatter.ofCommand run command code) := by
  refine hP.bind (hP.tell id) fun _ => ?_
  exact hP.bind (hstart _ _) fun _ => hP.of _

/-- What starting a program has, the formatters of a config have. -/
theorem formatters (config : Config) : (∀ code, P ((config.cleaner run).python code)) ∧
    ∀ code, P ((config.cleaner run).julia code) := by
  have hsteps : ∀ code,
      P (Formatter.inOrder (config.python.map (Formatter.ofCommand run)) code) := by
    refine hP.inOrder fun f hf => ?_
    obtain ⟨command, _, rfl⟩ := List.mem_map.mp hf
    exact hP.formatter hstart command
  refine ⟨hP.trimmed ?_, hP.trimmed ?_⟩
  · split
    · exact hP.masked hsteps
    · exact hsteps
  · exact hP.formatter hstart _

end

end Attempt.Composes
end NotebookTidy
