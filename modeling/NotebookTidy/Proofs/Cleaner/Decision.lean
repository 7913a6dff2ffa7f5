import NotebookTidy.Proofs.Cleaner.Result

/-! What decides the outcome of cleaning a document.

`Decided` gives the conditions of each outcome, every one with those that come before it ruled
out: the language is looked for first, then whether its code can be formatted, then the
cells, and last the first cell that fails. Every document has an outcome (`exists_decided`),
and cleaning comes to it (`status_of_decided`). Unless the document was cleaned it is as it
was (`documentAfter_of_not_cleaned`); if it was, its cells were found and none of them fails
(`selects_of_cleaned`). -/
namespace NotebookTidy

namespace Cleaner
open Files Json Notebook

variable {c : Cleaner} {python julia : String → Except Failure String} {available : Bool}
variable {document : Value}

variable (python julia available document) in
/-- The outcome of cleaning a document, and what decides it. -/
inductive Decided : Except Failure Status → Prop where
  | unnamed (h : ∀ language, ¬ WrittenIn document language) :
      Decided (.error (.missingField .languageName))
  | uncleanable {language : String} (h : WrittenIn document language)
      (hp : language ≠ "python") (hj : ¬ (language = "julia" ∧ available = true)) :
      Decided (.ok (.uncleanable language))
  | noCells {f : String → Except Failure String} (h : Selects python julia available document f)
      (hn : ∀ items, document.member? "cells" ≠ some (.array items)) :
      Decided (.error (.missingField .cells))
  | cellFails {f : String → Except Failure String} {before after : List Value} {cell : Value}
      {e : Failure} (h : Selects python julia available document f)
      (hcells : document.member? "cells" = some (.array (before ++ cell :: after)))
      (hbefore : Cell.NoneFails f before) (he : Cell.Fails f cell e) : Decided (.error e)
  | cleaned {f : String → Except Failure String} {items : List Value}
      (h : Selects python julia available document f)
      (hcells : document.member? "cells" = some (.array items))
      (hnone : Cell.NoneFails f items) : Decided (.ok .cleaned)

/-- Every document has an outcome. -/
theorem exists_decided (python julia : String → Except Failure String) (available : Bool)
    (document : Value) : ∃ r, Decided python julia available document r := by
  by_cases hnamed : ∃ language, WrittenIn document language
  · obtain ⟨language, hl⟩ := hnamed
    have hselects : (language ≠ "python" ∧ ¬ (language = "julia" ∧ available = true)) ∨
        ∃ f, Selects python julia available document f := by
      by_cases hp : language = "python"
      · exact .inr ⟨python, .python (hp ▸ hl)⟩
      · by_cases hj : language = "julia" ∧ available = true
        · exact .inr ⟨julia, .julia (hj.1 ▸ hl) hj.2⟩
        · exact .inl ⟨hp, hj⟩
    rcases hselects with ⟨hp, hj⟩ | ⟨f, hf⟩
    · exact ⟨_, .uncleanable hl hp hj⟩
    · by_cases hcells : ∃ items, document.member? "cells" = some (.array items)
      · obtain ⟨items, hitems⟩ := hcells
        rcases Cell.noneFails_or_first f items with
          hnone | ⟨before, cell, after, e, rfl, hbefore, he⟩
        · exact ⟨_, .cleaned hf hitems hnone⟩
        · exact ⟨_, .cellFails hf hitems hbefore he⟩
      · exact ⟨_, .noCells hf (not_exists.mp hcells)⟩
  · exact ⟨_, .unnamed (not_exists.mp hnamed)⟩

theorem forLanguage_eq_unavailable {language : String} (hp : language ≠ "python")
    (hj : ¬ (language = "julia" ∧ available = true)) :
    Choice.forLanguage language available = .unavailable := by
  rw [Choice.forLanguage, if_neg (show language ≠ pythonName from hp), if_neg]
  exact hj

/-- Cleaning comes to what is decided. -/
theorem status_of_decided (hc : c.Computes python julia available) {r : Except Failure Status}
    (h : Decided python julia available document r) (t : Tree) :
    ((c.cleanDocument document).run t).outcome.map Prod.fst = r := by
  cases h with
  | unnamed h =>
    rw [cleanDocument_of_unnamed h]
    rfl
  | uncleanable h hp hj =>
    rw [cleanDocument_of_unavailable hc h (forLanguage_eq_unavailable hp hj)]
    rfl
  | noCells h hn =>
    rw [cleanDocument_of_selects hc h, cells_eq_error hn]
    rfl
  | cellFails h hcells hbefore he =>
    rw [cleanDocument_of_selects hc h, cells_eq_ok_iff.mpr hcells]
    simp only [Except.bind, Cell.results_of_fails hbefore he]
    rfl
  | cleaned h hcells hnone =>
    obtain ⟨kept, hkept, _⟩ := Cell.results_of_noneFails hnone
    rw [cleanDocument_of_selects hc h, cells_eq_ok_iff.mpr hcells]
    simp only [Except.bind, hkept]
    rfl

theorem decided_status (hc : c.Computes python julia available) (document : Value) (t : Tree) :
    Decided python julia available document
      (((c.cleanDocument document).run t).outcome.map Prod.fst) := by
  obtain ⟨r, hr⟩ := exists_decided python julia available document
  rw [status_of_decided hc hr t]
  exact hr

/-- A document that is not cleaned is left as it was. -/
theorem documentAfter_of_not_cleaned (hc : c.Computes python julia available) (t : Tree)
    (h : ((c.cleanDocument document).run t).outcome.map Prod.fst ≠ .ok .cleaned) :
    documentAfter document ((c.cleanDocument document).run t).outcome = document := by
  cases ho : ((c.cleanDocument document).run t).outcome with
  | error e => rfl
  | ok done =>
    have hdecided := decided_status hc document t
    rw [ho] at hdecided h
    obtain ⟨status, after⟩ := done
    cases hdecided with
    | uncleanable hl hp hj =>
      rw [cleanDocument_of_unavailable hc hl (forLanguage_eq_unavailable hp hj)] at ho
      cases ho
      rfl
    | cleaned => exact absurd rfl h

/-- What a cleaned document comes from: an object that has cells, none of which fails, and what
they come to in their place. -/
theorem selects_of_cleaned (hc : c.Computes python julia available) {t : Tree} {cleaned : Value}
    (h : ((c.cleanDocument document).run t).outcome = .ok (.cleaned, cleaned)) :
    ∃ f, Selects python julia available document f ∧
      ∃ (ms : Members) (items kept : List Value), document = .object ms ∧
        ms.get? "cells" = some (.array items) ∧
        List.Forall₂ (Cell.Kept f) (items.filter fun cell => ¬ Cell.Dropped f cell) kept ∧
        cleaned = .object (ms.insert "cells" (.array kept)) := by
  have hdecided := decided_status hc document t
  rw [h] at hdecided
  cases hdecided with
  | @cleaned f items hf hcells hnone =>
    obtain ⟨kept, hresults, hkept⟩ := Cell.results_of_noneFails hnone
    obtain ⟨ms, rfl, hms, hwith⟩ := withCells_of_cells hcells kept
    rw [cleanDocument_of_selects hc hf, cells_eq_ok_iff.mpr hcells] at h
    simp only [Except.bind, hresults, Except.map, Except.ok.injEq, Prod.mk.injEq,
      true_and] at h
    exact ⟨f, hf, ms, items, kept, rfl, hms, hkept, by rw [← h, hwith]⟩

/-! ### A formatter and notebooks for it -/

/-- Takes `pass` away and refuses `!`. -/
def dropPass (code : String) : Except Failure String :=
  if code = "pass" then .ok "" else if code = "!" then .error (.outputNotText "drop") else .ok code

/-- A notebook in Python with some cells. -/
def pythonNotebook (cells : List Value) : Value :=
  .object [("nbformat", .number (.int 4)), ("cells", .array cells),
    ("metadata", .object [("language_info", .object [("name", .string "python")])])]

end Cleaner
end NotebookTidy
