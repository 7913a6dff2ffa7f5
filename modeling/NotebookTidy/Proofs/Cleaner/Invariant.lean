import NotebookTidy.Proofs.Cleaner.Survivors

/-! What holds of every cleaned notebook.

Whatever its formatters do, no cell of a cleaned notebook shows that it was run (`Pristine`),
and the source of a cell that holds code is the lines of what the formatter made of the code
that the cell held before (`FormattedFrom`). -/
namespace NotebookTidy
open Files Json

namespace Cell

/-- A typed cell that nothing was left behind in by its execution, and that is not hidden. -/
structure Pristine (cell : Members) : Prop where
  typed : "cell_type" ∈ cell.keys
  executionCount : cell.get? "execution_count" = some .null
  outputs : cell.get? "outputs" = some (.array [])
  shown : ∀ metadata jupyter : Members, cell.get? "metadata" = some (.object metadata) →
    metadata.get? "jupyter" = some (.object jupyter) → "source_hidden" ∉ jupyter.keys

/-- A source in lines, which together are what comes of some code and are not empty. -/
def FormattedFrom (f : String → Except Failure String) (code : String) (source : Value) : Prop :=
  ∃ lines : List String, source = .array (lines.map .string) ∧ lines ≠ [] ∧
    Text.InLines (lines.map String.toList) ∧ String.join lines ≠ "" ∧
    f code = .ok (String.join lines)

/-- What a cell of a cleaned document is, given the cell that it comes from. -/
def CleanFrom (f : String → Except Failure String) (before after : Value) : Prop :=
  ∃ cell : Members, after = .object cell ∧ Pristine cell ∧
    (cell.get? "cell_type" = some (.string "code") → ∃ source, cell.get? "source" = some source ∧
      FormattedFrom f (code before) source)

theorem shown_strip (ms metadata jupyter : Members)
    (hm : (strip ms).get? "metadata" = some (.object metadata))
    (hj : metadata.get? "jupyter" = some (.object jupyter)) : "source_hidden" ∉ jupyter.keys := by
  obtain ⟨v, hchanged⟩ := Value.exists_of_rel_some (hm ▸ get?_strip_metadata ms)
  cases hchanged with
  | object _ _ hjupyter =>
    obtain ⟨w, hwithout⟩ := Value.exists_of_rel_some (hj ▸ hjupyter)
    cases hwithout with
    | object keys _ =>
      rw [keys]
      simp
    | other h => exact absurd rfl (h jupyter)
  | other h => exact absurd rfl (h metadata)

theorem pristine_strip {ms : Members} {cellType : Value}
    (typed : ms.get? "cell_type" = some cellType) : Pristine (strip ms) := by
  refine ⟨?_, get?_strip_executionCount ms, get?_strip_outputs ms, shown_strip ms⟩
  by_contra hnot
  rw [← Members.get?_eq_none_iff, get?_strip_cellType, typed] at hnot
  cases hnot

/-- A source is no part of what makes a cell pristine. -/
theorem Pristine.setSource {cell : Members} (h : Pristine cell) (lines : List String) :
    Pristine (setSource cell lines) := by
  refine ⟨?_, ?_, ?_, fun metadata jupyter hm => ?_⟩
  · rw [Cell.setSource, Members.keys_insert]
    split
    · exact h.typed
    · exact List.mem_append_left _ h.typed
  · rw [Cell.setSource, Members.get?_insert_of_ne _ (by decide), h.executionCount]
  · rw [Cell.setSource, Members.get?_insert_of_ne _ (by decide), h.outputs]
  · rw [Cell.setSource, Members.get?_insert_of_ne _ (by decide)] at hm
    exact h.shown metadata jupyter hm

/-- A cell that is kept is pristine, and its source is formatted if it holds code. -/
theorem cleanFrom_of_kept {f : String → Except Failure String} {cell new : Value}
    (h : Kept f cell new) : CleanFrom f cell new := by
  cases h with
  | @other ms cellType typed hne =>
    refine ⟨strip ms, rfl, pristine_strip typed, fun hcode => ?_⟩
    rw [get?_strip_cellType, typed] at hcode
    exact absurd (Option.some.inj hcode) hne
  | @code ms text lines typed formatted split =>
    refine ⟨_, rfl, (pristine_strip typed).setSource lines, fun _ =>
      ⟨_, Members.get?_insert_self _ _ _, ?_⟩⟩
    obtain ⟨hlines, hin, hjoin, hne⟩ := lines_of_splitSource split
    exact ⟨lines, rfl, hlines, hin, hjoin ▸ hne, hjoin ▸ formatted⟩

end Cell

namespace Cleaner

variable {c : Cleaner} {python julia : String → Except Failure String} {available : Bool}

/-- **No cell of a cleaned notebook shows that it was run, and every code cell holds what the
formatter made of its code**, in lines and not empty. -/
theorem cleaned_cells_clean (hc : c.Computes python julia available)
    {document cleaned : Value} {t : Tree}
    (h : ((c.cleanDocument document).run t).outcome = .ok (.cleaned, cleaned)) :
    ∃ f items kept, Selects python julia available document f ∧
      document.member? "cells" = some (.array items) ∧
      cleaned.member? "cells" = some (.array kept) ∧
      List.Forall₂ (Cell.CleanFrom f) (items.filter fun cell => ¬ Cell.Dropped f cell) kept := by
  obtain ⟨f, hf, ms, items, kept, rfl, hcells, hkept, rfl⟩ := selects_of_cleaned hc h
  refine ⟨f, items, kept, hf, hcells, Members.get?_insert_self ms _ _, ?_⟩
  exact hkept.imp fun _ _ => Cell.cleanFrom_of_kept

theorem cleaned_cells_clean_mixed :
    (((ofFunctions dropPass .ok false).cleanDocument mixedNotebook).run ⟨[], []⟩).outcome =
        .ok (.cleaned, mixedCleaned) ∧
      ∃ f items kept, Selects dropPass .ok false mixedNotebook f ∧
        mixedNotebook.member? "cells" = some (.array items) ∧
        mixedCleaned.member? "cells" = some (.array kept) ∧
        List.Forall₂ (Cell.CleanFrom f) (items.filter fun cell => ¬ Cell.Dropped f cell) kept := by
  have h : (((ofFunctions dropPass .ok false).cleanDocument mixedNotebook).run ⟨[], []⟩).outcome =
      .ok (.cleaned, mixedCleaned) := by decide +kernel
  exact ⟨h, cleaned_cells_clean (computes_ofFunctions dropPass .ok false) h⟩

end Cleaner
end NotebookTidy
