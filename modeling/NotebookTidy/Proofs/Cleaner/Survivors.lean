import NotebookTidy.Proofs.Cell.Frame
import NotebookTidy.Proofs.Cleaner.Decision

/-! The cells that survive cleaning.

A cleaned document has, in the place of its cells, exactly those whose code did not come to
nothing, in the order they were in, each changed only where a cell may change; all its other
members are as they were and where they were (`cleaned_cells_survive`). -/
namespace NotebookTidy.Cleaner
open Files Json

/-- A cell before and after, both of them objects. -/
def Survives (before after : Value) : Prop :=
  ∃ ms ms', before = .object ms ∧ after = .object ms' ∧ Cell.SameElsewhere ms ms'

/-- A document before and after its cells were cleaned with a function. -/
structure OnlyCellsCleaned (f : String → Except Failure String) (before after : Members) :
    Prop where
  keys : after.keys = before.keys
  others : ∀ key, key ≠ "cells" → after.get? key = before.get? key
  cells : ∃ items kept, before.get? "cells" = some (.array items) ∧
    after.get? "cells" = some (.array kept) ∧
    List.Forall₂ Survives (items.filter fun cell => ¬ Cell.Dropped f cell) kept

variable {c : Cleaner} {python julia : String → Except Failure String} {available : Bool}

/-- **Cleaning drops the cells whose code comes to nothing and keeps all others, in order**,
and a cell or a document keeps everything else that it holds. -/
theorem cleaned_cells_survive (hc : c.Computes python julia available)
    {document cleaned : Value} {t : Tree}
    (h : ((c.cleanDocument document).run t).outcome = .ok (.cleaned, cleaned)) :
    ∃ f before after, Selects python julia available document f ∧
      document = .object before ∧ cleaned = .object after ∧ OnlyCellsCleaned f before after := by
  obtain ⟨f, hf, ms, items, kept, rfl, hcells, hkept, rfl⟩ := selects_of_cleaned hc h
  have hplace : "cells" ∈ ms.keys := by
    by_contra hnot
    rw [(Members.get?_eq_none_iff ms "cells").mpr hnot] at hcells
    cases hcells
  refine ⟨f, ms, _, hf, rfl, rfl, ?_, fun key hkey => Members.get?_insert_of_ne ms hkey _,
    items, kept, hcells, Members.get?_insert_self ms _ _, ?_⟩
  · rw [Members.keys_insert, if_pos hplace]
  · exact hkept.imp fun _ _ => Cell.sameElsewhere_of_kept

/-- A notebook with cells of all kinds. -/
def mixedNotebook : Value := pythonNotebook [
  .object [("cell_type", .string "markdown"), ("source", .string "# Title"),
    ("metadata", .object [("jupyter",
      .object [("source_hidden", .bool true), ("outputs_hidden", .bool true)])])],
  .object [("outputs", .array [.null]), ("cell_type", .string "code"), ("source", .string "x\ny")],
  .object [("cell_type", .string "code"), ("source", .string "pass")],
  .object [("cell_type", .number (.int 1)), ("source", .string "pass")]]

def mixedCleaned : Value := pythonNotebook [
  .object [("cell_type", .string "markdown"), ("source", .string "# Title"),
    ("metadata", .object [("jupyter", .object [("outputs_hidden", .bool true)])]),
    ("execution_count", .null), ("outputs", .array [])],
  .object [("outputs", .array []), ("cell_type", .string "code"),
    ("source", .array [.string "x\n", .string "y"]), ("execution_count", .null)],
  .object [("cell_type", .number (.int 1)), ("source", .string "pass"),
    ("execution_count", .null), ("outputs", .array [])]]

theorem cleaned_cells_survive_mixed :
    (((ofFunctions dropPass .ok false).cleanDocument mixedNotebook).run ⟨[], []⟩).outcome =
        .ok (.cleaned, mixedCleaned) ∧
      ∃ f before after, Selects dropPass .ok false mixedNotebook f ∧
        mixedNotebook = .object before ∧ mixedCleaned = .object after ∧
        OnlyCellsCleaned f before after := by
  have h : (((ofFunctions dropPass .ok false).cleanDocument mixedNotebook).run ⟨[], []⟩).outcome =
      .ok (.cleaned, mixedCleaned) := by decide +kernel
  exact ⟨h, cleaned_cells_survive (computes_ofFunctions dropPass .ok false) h⟩

end NotebookTidy.Cleaner
