import NotebookTidy.Proofs.Cleaner.Invariant

/-! Cleaning what is clean.

A formatter settles code if it leaves alone what it made of any code. Then a cell that was kept
is kept again, as it is (`result_of_kept`), since nothing is left to be stripped and its lines
together are what the formatter made; so a document that was cleaned, or that cannot be, is left
as it is by any cleaning after that (`cleanDocument_again`). -/
namespace NotebookTidy
open Files Json

/-- What comes of code, unless it is nothing, is left as it is. -/
def Settles (f : String → Except Failure String) : Prop :=
  ∀ code formatted, f code = .ok formatted → formatted ≠ "" → f formatted = .ok formatted

namespace Cell

/-! ### Nothing left to strip -/

theorem unhide_setSource (ms : Members) (lines : List String) :
    unhide (setSource ms lines) = setSource (unhide ms) lines :=
  Members.modify_insert_of_ne ms (by decide) _ _

theorem strip_of_pristine {ms : Members} (h : Pristine ms) (hshown : unhide ms = ms) :
    strip ms = ms := by
  rw [strip, Members.insert_of_get? h.executionCount, Members.insert_of_get? h.outputs, hshown]

/-! ### Cells that are kept again -/

variable {f : String → Except Failure String}

/-- A cell that was kept is kept as it is. -/
theorem result_of_kept (hf : Settles f) {cell new : Value} (h : Kept f cell new) :
    result f new = .ok (some new) := by
  cases h with
  | @other ms cellType typed hne =>
    rw [result_of_other ((get?_strip_cellType ms).trans typed) hne, strip_strip]
  | @code ms text lines typed formatted split =>
    obtain ⟨_, _, hjoin, hne⟩ := lines_of_splitSource split
    have hpristine := (pristine_strip typed).setSource lines
    have hshown : unhide (setSource (strip ms) lines) = setSource (strip ms) lines := by
      rw [unhide_setSource, unhide_strip]
    have htyped : (setSource (strip ms) lines).get? "cell_type" = some (.string "code") := by
      rw [setSource, Members.get?_insert_of_ne _ (by decide), get?_strip_cellType, typed]
    have hsource : (setSource (strip ms) lines).get? "source" = some (.array (lines.map .string)) :=
      Members.get?_insert_self _ _ _
    have hcode : code (.object (setSource (strip ms) lines)) = text := by
      rw [code, Value.member?_object, hsource, Option.getD_some, joinSource_lines, hjoin]
    rw [result_of_code htyped, hcode, hf _ _ formatted hne]
    simp only [Except.map, split, Option.map_some, strip_of_pristine hpristine hshown]
    rw [setSource, Members.insert_of_get? hsource]

theorem results_of_kept (hf : Settles f) {cells kept : List Value}
    (h : List.Forall₂ (Kept f) cells kept) : results f kept = .ok kept := by
  induction h with
  | nil => rfl
  | cons hcell _ ih =>
    rw [results, result_of_kept hf hcell, ih]
    rfl

end Cell

namespace Cleaner
open Notebook

variable {c : Cleaner} {python julia : String → Except Failure String} {available : Bool}

/-- The cells of a document say nothing of the language that it is written in. -/
theorem writtenIn_insert_cells {ms : Members} {v : Value} {language : String}
    (h : WrittenIn (.object ms) language) : WrittenIn (.object (ms.insert "cells" v)) language := by
  obtain ⟨metadata, info, hm, hi, hn⟩ := h
  refine ⟨metadata, info, ?_, hi, hn⟩
  rw [Value.member?_object, Members.get?_insert_of_ne _ (by decide)]
  exact hm

theorem Selects.insert_cells {ms : Members} {v : Value} {f : String → Except Failure String}
    (h : Selects python julia available (.object ms) f) :
    Selects python julia available (.object (ms.insert "cells" v)) f := by
  cases h with
  | python h => exact .python (writtenIn_insert_cells h)
  | julia h ha => exact .julia (writtenIn_insert_cells h) ha

theorem settles_of_selects (hp : Settles python) (hj : Settles julia) {document : Value}
    {f : String → Except Failure String} (h : Selects python julia available document f) :
    Settles f := by
  cases h with
  | python => exact hp
  | julia => exact hj

/-- A document that cleaning succeeded on comes to the same once more. -/
theorem cleanDocument_again (hc : c.Computes python julia available) (hp : Settles python)
    (hj : Settles julia) {document after : Value} {status : Status} {t : Tree}
    (h : ((c.cleanDocument document).run t).outcome = .ok (status, after)) (t' : Tree) :
    ((c.cleanDocument after).run t').outcome = .ok (status, after) := by
  cases status with
  | cleaned =>
    obtain ⟨f, hf, ms, items, kept, rfl, hcells, hkept, rfl⟩ := selects_of_cleaned hc h
    have hkeptCells : (Value.object (ms.insert "cells" (.array kept))).member? "cells" =
        some (.array kept) := Members.get?_insert_self ms _ _
    have hresults := Cell.results_of_kept (settles_of_selects hp hj hf) hkept
    rw [cleanDocument_of_selects hc hf.insert_cells, cells_eq_ok_iff.mpr hkeptCells]
    simp only [Except.bind, hresults, Except.map, withCells, Value.mapMembers]
    rw [Members.insert_of_get? hkeptCells]
  | uncleanable language =>
    have hdecided := decided_status hc document t
    have hsame := documentAfter_of_not_cleaned hc t (by rw [h]; nofun)
    rw [h] at hdecided hsame
    obtain rfl : after = document := hsame
    cases hdecided with
    | uncleanable hl hp hj =>
      exact cleanDocument_of_unavailable hc hl (forLanguage_eq_unavailable hp hj) t'

end Cleaner
end NotebookTidy
