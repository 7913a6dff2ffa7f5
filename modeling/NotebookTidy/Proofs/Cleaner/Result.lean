import NotebookTidy.Proofs.Cell.Result

/-! What comes of a document.

A document is written in the language that stands at a path through nested objects
(`WrittenIn`), and the language selects the function that the code of its cells goes
through (`Selects`), or none. Without a language cleaning fails, without a function the
document is left as it is, and with a function it comes to what its cells come to
(`cleanDocument_of_unnamed`, `cleanDocument_of_unavailable`, `cleanDocument_of_selects`). -/
namespace NotebookTidy
open Files Json

namespace Notebook

/-- The document says, at `metadata`, `language_info`, `name`, what language it is in. -/
def WrittenIn (document : Value) (language : String) : Prop :=
  ∃ metadata info, document.member? "metadata" = some metadata ∧
    metadata.member? "language_info" = some info ∧ info.member? "name" = some (.string language)

theorem string?_eq_some_iff {v : Value} {s : String} : v.string? = some s ↔ v = .string s := by
  cases v <;> simp [Value.string?]

theorem language?_eq_some_iff {document : Value} {language : String} :
    language? document = some language ↔ WrittenIn document language := by
  simp [language?, WrittenIn, Option.bind_eq_some_iff, string?_eq_some_iff]

theorem languageName_eq_ok_iff {document : Value} {language : String} :
    languageName document = .ok language ↔ WrittenIn document language := by
  rw [← language?_eq_some_iff, languageName]
  cases language? document <;> simp

theorem cells_eq_ok_iff {document : Value} {items : List Value} :
    cells document = .ok items ↔ document.member? "cells" = some (.array items) := by
  rw [cells]
  cases hm : document.member? "cells" with
  | none => simp
  | some v => cases v <;> simp [Value.array?]

theorem cells_eq_error {document : Value}
    (h : ∀ items, document.member? "cells" ≠ some (.array items)) :
    cells document = .error (.missingField .cells) := by
  cases hc : cells document with
  | ok items => exact absurd (cells_eq_ok_iff.mp hc) (h items)
  | error e =>
    rw [cells] at hc
    split at hc
    · cases hc
    · exact hc.symm

/-- Only an object has cells, and new ones go in the place of the old. -/
theorem withCells_of_cells {document : Value} {items : List Value}
    (h : document.member? "cells" = some (.array items)) (kept : List Value) :
    ∃ ms : Members, document = .object ms ∧ ms.get? "cells" = some (.array items) ∧
      withCells document kept = .object (ms.insert "cells" (.array kept)) := by
  obtain ⟨ms, rfl, hms⟩ := Value.member?_eq_some_iff.mp h
  exact ⟨ms, rfl, hms, rfl⟩

end Notebook

namespace Cleaner
open Notebook

variable {c : Cleaner} {python julia : String → Except Failure String} {available : Bool}
variable {document : Value}

variable (python julia available document) in
/-- The function that the code of a document goes through. -/
inductive Selects : (String → Except Failure String) → Prop where
  | python (h : WrittenIn document "python") : Selects python
  | julia (h : WrittenIn document "julia") (ha : available = true) : Selects julia

theorem choose_outcome (hc : c.Computes python julia available) (language : String) (t : Tree) :
    ((c.choose language).run t).outcome = .ok (.forLanguage language available) := by
  rw [choose]
  by_cases hj : language = juliaName
  · rw [if_pos hj, Attempt.outcome_bind, Attempt.outcome_tell]
    simp only [Except.bind, Attempt.outcome_bind, hc.probe, Attempt.outcome_pure]
  · simp [hj, Choice.forLanguage]

theorem cleanDocument_of_unnamed (h : ∀ language, ¬ WrittenIn document language) (t : Tree) :
    ((c.cleanDocument document).run t).outcome = .error (.missingField .languageName) := by
  have hnone : language? document = none := by
    rw [Option.eq_none_iff_forall_ne_some]
    intro language hl
    exact h language (language?_eq_some_iff.mp hl)
  simp only [cleanDocument, languageName, hnone, Attempt.outcome_bind, Attempt.outcome_of]
  rfl

theorem cleanCells_outcome {φ : Formatter} {f : String → Except Failure String}
    (hφ : φ.Computes f) (language : String) (document : Value) (t : Tree) :
    ((cleanCells φ language document).run t).outcome =
      (cells document).bind fun items => (Cell.results f items).map (withCells document) := by
  simp only [cleanCells, Attempt.outcome_bind, Attempt.outcome_of]
  cases cells document with
  | error e => rfl
  | ok items =>
    simp only [Except.bind, Attempt.run_of, ← Cell.visitAll_outcome hφ Tally.zero items t]
    cases ((Tally.zero.visitAll (some φ) items).run t).outcome <;> rfl

/-- A language of which no code can be formatted leaves the document as it is. -/
theorem cleanDocument_of_unavailable (hc : c.Computes python julia available) {language : String}
    (h : WrittenIn document language)
    (hu : Choice.forLanguage language available = .unavailable) (t : Tree) :
    ((c.cleanDocument document).run t).outcome = .ok (.uncleanable language, document) := by
  have hname := languageName_eq_ok_iff.mpr h
  simp only [cleanDocument, hname, Attempt.outcome_bind, Attempt.outcome_of, Except.bind,
    choose_outcome hc, hu]
  rfl

/-- The function that is selected decides what the cells, and with them the document,
come to. -/
theorem cleanDocument_of_selects (hc : c.Computes python julia available)
    {f : String → Except Failure String} (h : Selects python julia available document f)
    (t : Tree) :
    ((c.cleanDocument document).run t).outcome = (cells document).bind fun items =>
      (Cell.results f items).map fun kept => (.cleaned, withCells document kept) := by
  obtain ⟨language, φ, hl, hchoice, hφ⟩ : ∃ language φ, WrittenIn document language ∧
      c.formatter? (.forLanguage language available) = some φ ∧ φ.Computes f := by
    cases h with
    | python h => exact ⟨_, c.python, h, rfl, hc.python⟩
    | julia h ha => exact ⟨_, c.julia, h, by rw [ha]; rfl, hc.julia⟩
  have hname := languageName_eq_ok_iff.mpr hl
  simp only [cleanDocument, hname, Attempt.outcome_bind, Attempt.outcome_of, Except.bind,
    choose_outcome hc, hchoice, cleanCells_outcome hφ]
  cases cells document with
  | error e => rfl
  | ok items =>
    dsimp only
    cases Cell.results f items <;> rfl

end Cleaner
end NotebookTidy
