import NotebookTidy.Proofs.Cleaner.Canonical
import NotebookTidy.Proofs.Files.Filled
import NotebookTidy.Proofs.Job.Beside

/-! Scripts, and notebooks with the same code.

A script goes through the formatter for Python as a whole, and so does the code of a notebook in
Python with a single cell (`formatScript_outcome`, `cleanDocument_of_holdsOnly`). What either makes
of the code is the same code (`sameCode_of_formatted`), so cleaning the script is cleaning the
notebook: where the formatter fails both fail, and alike, and otherwise both succeed, if the script
can still be written once the formatter has run (`script_as_only_cell`). -/
namespace NotebookTidy
open Files Files.Tree Json

namespace Notebook

/-- A notebook in Python that has one cell, with this code in it. -/
structure HoldsOnly (document : Value) (code : String) : Prop where
  language : WrittenIn document pythonName
  cells : ∃ cell, document.member? "cells" = some (.array [cell]) ∧ Cell.HoldsCode cell ∧
    Cell.code cell = code

/-- What a script holds is the code of a notebook: it is empty if the notebook has no cell, and
otherwise the source of the only cell, and the one newline at its end. -/
structure SameCode (cleaned : Value) (content : Bytes) : Prop where
  empty : content = [] ↔ cleaned.member? "cells" = some (.array [])
  ended : content ≠ [] → ∃ cell lines, cleaned.member? "cells" = some (.array [cell]) ∧
    cell.member? "source" = some (.array (lines.map .string)) ∧
    content = Text.encode (String.join lines ++ "\n") ∧
    String.join lines ≠ "" ∧ (String.join lines).toList.getLast? ≠ some '\n'

/-- Code goes into a cell, or into a script. Neither is given a cell or a line if there is none. -/
theorem sameCode_of_formatted {document : Value} {items : List Value}
    (hcells : document.member? "cells" = some (.array items)) (cell : Members) {text : String}
    (htext : text.toList.getLast? ≠ some '\n') :
    SameCode
      (withCells document
        ((Cell.splitSource text).map fun lines => .object (Cell.setSource cell lines)).toList)
      (Text.encode (if text = "" then "" else text ++ "\n")) := by
  have hkept : ∀ kept, (withCells document kept).member? "cells" = some (.array kept) := by
    intro kept
    obtain ⟨ms, rfl, _, hwith⟩ := withCells_of_cells hcells kept
    rw [hwith, Value.member?_object, Members.get?_insert_self]
  cases hsplit : Cell.splitSource text with
  | none =>
    obtain rfl := (Cell.splitSource_eq_none_iff text).mp hsplit
    exact ⟨iff_of_true rfl (hkept []), fun hne => absurd rfl hne⟩
  | some lines =>
    obtain ⟨_, _, rfl, hne⟩ := Cell.lines_of_splitSource hsplit
    rw [if_neg hne]
    refine ⟨iff_of_false ?_ ?_, fun _ => ?_⟩
    · exact fun h => by simpa using Text.encode_eq_nil_iff.mp h
    · simp [hkept]
    · exact ⟨_, lines, hkept _, Members.get?_insert_self _ _ _, rfl, hne, htext⟩

end Notebook

/-- A file that is there can be written, and holds then what was written. -/
theorem Files.Tree.FileAt.write {t : Tree} {path : Path} (hfile : t.FileAt path)
    (hnested : t.Nested) (content : Bytes) :
    ∃ written, t.write path content = .ok written ∧ written.read path = .ok content := by
  obtain ⟨l, old, hr, hl⟩ := hfile
  have hplace := creatable_of_file hnested hr hl
  have hfill : t.Fillable l := .inr ⟨old, hl⟩
  exact ⟨_, write_of_fillable hplace hfill content, Job.read_put hplace hfill content⟩

theorem Tally.visitAll_singleton_outcome (φ : Formatter) (tally : Tally) (cell : Value) (t : Tree) :
    ((tally.visitAll (some φ) [cell]).run t).outcome.map Prod.snd =
      (Cell.result (φ.among t) cell).map Option.toList := by
  obtain ⟨events, hvisit⟩ := Cell.run_visit tally (some φ) cell t
  rw [Cell.tidy_outcome] at hvisit
  rw [visitAll, Attempt.outcome_bind, hvisit]
  cases Cell.result (φ.among t) cell with
  | error e => rfl
  | ok kept => cases kept <;> rfl

namespace Cleaner
open Notebook

variable {c : Cleaner} {document : Value} {code : String}

theorem cleanDocument_of_python (h : WrittenIn document pythonName) (t : Tree) :
    ((c.cleanDocument document).run t).outcome =
      ((cleanCells c.python pythonName document).run t).outcome.map fun cleaned =>
        (Status.cleaned, cleaned) := by
  have hchoose : c.choose pythonName = pure .python := by
    rw [choose, if_neg (by decide)]
    rfl
  rw [cleanDocument, Attempt.outcome_bind, Attempt.outcome_of, languageName_eq_ok_iff.mpr h]
  simp only [Except.bind, Attempt.run_of, hchoose, Attempt.pure_bind]
  exact congrArg Done.outcome (Attempt.run_bind_pure _ _ t)

/-- The cells of a document are visited, and what is left of them is put in their place. -/
theorem cleanCells_visits (φ : Formatter) (language : String) (document : Value) (t : Tree) :
    ((cleanCells φ language document).run t).outcome = (cells document).bind fun items =>
      (((Tally.zero.visitAll (some φ) items).run t).outcome.map Prod.snd).map
        (withCells document) := by
  rw [cleanCells, Attempt.outcome_bind, Attempt.outcome_of]
  cases cells document with
  | error e => rfl
  | ok items =>
    simp only [Except.bind, Attempt.run_of, Attempt.outcome_bind]
    cases ((Tally.zero.visitAll (some φ) items).run t).outcome <;> rfl

/-- What is left of the only cell of a notebook. -/
theorem cleanDocument_of_holdsOnly (h : HoldsOnly document code) (t : Tree) :
    ∃ cell : Members, ((c.cleanDocument document).run t).outcome =
      (c.python.among t code).map fun text => (Status.cleaned, withCells document
        ((Cell.splitSource text).map fun lines => .object (Cell.setSource cell lines)).toList) := by
  obtain ⟨cell, hcells, hcode, rfl⟩ := h.cells
  obtain ⟨ms, rfl, typed⟩ := Value.member?_eq_some_iff.mp hcode
  refine ⟨Cell.strip ms, ?_⟩
  rw [cleanDocument_of_python h.language, cleanCells_visits, cells_eq_ok_iff.mpr hcells]
  simp only [Except.bind]
  rw [Tally.visitAll_singleton_outcome, Cell.result_of_code typed]
  simp only [Attempt.outcome_map_map]

theorem formatScript_outcome (c : Cleaner) (code : String) (t : Tree) :
    ((c.formatScript code).run t).outcome =
      (c.python.among t code).map fun text => if text = "" then "" else text ++ "\n" := by
  rw [formatScript, Attempt.run_bind_pure]
  rfl

end Cleaner

namespace Job
open Notebook Cleaner

variable {c : Cleaner} {job : Job} {document : Value} {code : String} {t t' : Tree}

/-- A script is written once the formatter has run, if that did not fail. -/
theorem leaves_script (hjob : job.kind = .script) (hstarted : job.started t = .ok t')
    (hread : t'.readText job.target = .ok code) :
    (job.run c).leaves t =
      let formatted := (c.formatScript code).run t'
      match formatted.outcome with
      | .error e => (formatted.tree, .error e)
      | .ok text =>
        match formatted.tree.write job.target (Text.encode text) with
        | .error e => (formatted.tree, .error (.io e))
        | .ok written => (written, .ok .cleaned) := by
  have htext : (cleanText c job.kind code).leaves t' =
      (((c.formatScript code).run t').tree,
        ((c.formatScript code).run t').outcome.map (Status.cleaned, ·)) := by
    rw [hjob, cleanText, Attempt.leaves, Attempt.run_bind_pure]
  rw [leaves_run_of_loaded hstarted hread, leaves_finish_of htext]
  dsimp only
  cases ((c.formatScript code).run t').outcome <;> rfl

/-- **A script is cleaned as the only cell of a notebook is.** Either both fail, and alike, or the
notebook is left with the code that the script is written with. Only that may fail still, unless the
formatter left a file in the place of the script. -/
theorem script_as_only_cell {steps : List Formatter} {mask : Bool}
    (hpython : c.python = .python steps mask) (hdocument : HoldsOnly document code)
    (hjob : job.kind = .script) (hstarted : job.started t = .ok t')
    (hread : t'.readText job.target = .ok code) :
    let script := (job.run c).run t
    let notebook := (c.cleanDocument document).run t'
    let files := ((c.python code).run t').tree
    (∃ e, script.outcome = .error e ∧ notebook.outcome = .error e) ∨
      ∃ cleaned content, notebook.outcome = .ok (.cleaned, cleaned) ∧ SameCode cleaned content ∧
        (files.write job.target content = .ok script.tree ∧ script.outcome = .ok .cleaned ∨
          ∃ e, files.write job.target content = .error e ∧ script.outcome = .error (.io e)) ∧
        (files.Nested → files.FileAt job.target →
          script.outcome = .ok .cleaned ∧ script.tree.read job.target = .ok content) := by
  intro script notebook files
  have htree : ((c.formatScript code).run t').tree = files := by
    rw [formatScript, Attempt.run_bind_pure]
  obtain ⟨items, hcells, _⟩ := hdocument.cells
  obtain ⟨cell, hnotebook⟩ := cleanDocument_of_holdsOnly (c := c) hdocument t'
  have hscript := leaves_script (c := c) hjob hstarted hread
  dsimp only at hscript
  rw [formatScript_outcome, htree] at hscript
  cases hformatted : c.python.among t' code with
  | error e =>
    rw [hformatted] at hscript hnotebook
    exact .inl ⟨e, (Prod.mk.inj hscript).2, hnotebook⟩
  | ok text =>
    rw [hformatted] at hscript hnotebook
    rw [hpython] at hformatted
    have hsame := sameCode_of_formatted hcells cell (Formatter.getLast?_of_trimmed hformatted)
    dsimp only [Except.map] at hscript
    refine .inr ⟨_, _, hnotebook, hsame, ?_, fun hnested hfile => ?_⟩
    · cases hwrite : files.write job.target (Text.encode (if text = "" then "" else text ++ "\n")) with
      | error e =>
        rw [hwrite] at hscript
        exact .inr ⟨e, rfl, (Prod.mk.inj hscript).2⟩
      | ok written =>
        rw [hwrite] at hscript
        obtain ⟨hwritten, hcleaned⟩ := Prod.mk.inj hscript
        exact .inl ⟨congrArg Except.ok hwritten.symm, hcleaned⟩
    · obtain ⟨written, hwrite, hholds⟩ := hfile.write hnested _
      rw [hwrite] at hscript
      obtain ⟨hwritten, hcleaned⟩ := Prod.mk.inj hscript
      exact ⟨hcleaned, hwritten ▸ hholds⟩

def magicScript : Tree := ⟨[([Text.encode "a.py"], .file (Text.encode "%time\ny"))], []⟩

/-- The formatter puts newlines behind a magic and a line of code. -/
theorem script_as_only_cell_magic :
    let notebook := pythonNotebook [
      .object [("cell_type", .string "code"), ("source", .string "%time\ny")]]
    let cleaned := pythonNotebook [
      .object [("cell_type", .string "code"),
        ("source", .array [.string "%time\n", .string "y"]),
        ("execution_count", .null), ("outputs", .array [])]]
    let script := ((⟨.ofString "a.py", .script, true⟩ : Job).run looseCleaner).run magicScript
    HoldsOnly notebook "%time\ny" ∧
      magicScript.readText (.ofString "a.py") = .ok "%time\ny" ∧
      ((looseCleaner.cleanDocument notebook).run magicScript).outcome = .ok (.cleaned, cleaned) ∧
      script.outcome = .ok .cleaned ∧
      script.tree.read (.ofString "a.py") = .ok (Text.encode "%time\ny\n") ∧
      SameCode cleaned (Text.encode "%time\ny\n") := by
  intro notebook cleaned script
  have hdocument : HoldsOnly notebook "%time\ny" :=
    ⟨⟨_, _, rfl, rfl, rfl⟩, _, rfl, rfl, rfl⟩
  have hread : magicScript.readText (.ofString "a.py") = .ok "%time\ny" := by decide +kernel
  have hloose : ∀ f ∈ [looseFormatter], ∀ code, (f code).KeepsFiles := by
    simp [looseFormatter, Formatter.ofFunction, Attempt.keepsFiles_of]
  have hkeeps : ∀ code, (looseCleaner.python code).KeepsFiles :=
    Attempt.composes_keepsFiles.trimmed
      (Attempt.composes_keepsFiles.masked (Attempt.composes_keepsFiles.inOrder hloose))
  have hnested : ((looseCleaner.python "%time\ny").run magicScript).tree.Nested := by
    rw [hkeeps]
    exact nested_of_entries (by decide +kernel)
  have hfile : ((looseCleaner.python "%time\ny").run magicScript).tree.FileAt (.ofString "a.py") := by
    rw [hkeeps]
    exact ⟨[Text.encode "a.py"], Text.encode "%time\ny", by decide +kernel, by decide +kernel⟩
  have hcleaned : ((looseCleaner.cleanDocument notebook).run magicScript).outcome =
      .ok (.cleaned, cleaned) := by decide +kernel
  have hwritten : script.tree.read (.ofString "a.py") = .ok (Text.encode "%time\ny\n") := by
    decide +kernel
  have hsame := @script_as_only_cell looseCleaner ⟨.ofString "a.py", .script, true⟩ notebook
    "%time\ny" magicScript magicScript [looseFormatter] true rfl hdocument rfl rfl hread
  obtain ⟨e, _, hfails⟩ | ⟨_, _, hclean, hcode, _, hthere⟩ := hsame
  · cases hfails.symm.trans hcleaned
  · obtain ⟨hdone, hholds⟩ := hthere hnested hfile
    cases hclean.symm.trans hcleaned
    cases hholds.symm.trans hwritten
    exact ⟨hdocument, hread, hcleaned, hdone, hwritten, hcode⟩

end Job
end NotebookTidy
