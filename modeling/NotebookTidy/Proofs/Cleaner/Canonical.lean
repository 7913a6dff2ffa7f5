import NotebookTidy.Proofs.Agreement
import NotebookTidy.Proofs.Cell.Visits
import NotebookTidy.Proofs.Cleaner.Decision
import NotebookTidy.Proofs.Formatter.Magics

/-! The sources of a cleaned notebook.

The formatters of the two languages run some formatter that is not known here (`RunsFor`), and
whatever that makes of code, they take away the newlines at its end. So no line of what they make
is empty, the last one included, and nothing is left when there were nothing but newlines
(`result_trimmed_eq_none_iff`). `cleaned_sources_canonical`: the cells were visited in turn, those
were dropped that had blank code or that newlines were made of, and the sources of all other code
cells are canonical. -/
namespace NotebookTidy
open Files Json

namespace Formatter

theorem getLast?_of_trimmed {φ : Formatter} {t : Tree} {code text : String}
    (h : (trimmed φ).among t code = .ok text) : text.toList.getLast? ≠ some '\n' := by
  rw [among_trimmed] at h
  split at h
  · cases h
    exact fun hlast => by cases hlast
  · obtain ⟨out, _, rfl⟩ := exists_of_map_eq_ok h
    exact Text.getLast?_trimEndNewlines out

theorem trimmed_eq_empty_iff {φ : Formatter} {t : Tree} {code : String} :
    (trimmed φ).among t code = .ok "" ↔ Text.allBlank code = true ∨
      ∃ out, φ.among t code = .ok out ∧ ∀ c ∈ out.toList, c = '\n' := by
  rw [among_trimmed]
  by_cases hblank : Text.allBlank code = true
  · simp only [hblank, if_true, true_or]
  · rw [if_neg hblank, or_iff_right hblank]
    cases φ.among t code with
    | error e => simp [Except.map]
    | ok out => simp [Except.map, Text.trimEndNewlines_eq_empty_iff]

end Formatter

namespace Cell

/-- A cell whose code is blank, or of whose code nothing but newlines are made. -/
def ComesToNothing (φ : Formatter) (files : Tree) (cell : Value) : Prop :=
  HoldsCode cell ∧ (Text.allBlank (code cell) = true ∨
    ∃ out, φ.among files (code cell) = .ok out ∧ ∀ c ∈ out.toList, c = '\n')

theorem result_trimmed_eq_none_iff {φ : Formatter} {t : Tree} {cell : Value} :
    result ((Formatter.trimmed φ).among t) cell = .ok none ↔ ComesToNothing φ t cell := by
  rw [result_eq_none_iff, Dropped, ComesToNothing, Formatter.trimmed_eq_empty_iff]

/-- What a code cell is kept with is canonical. -/
theorem canonical_of_result {φ : Formatter} {t : Tree} {cell new : Value}
    (h : result ((Formatter.trimmed φ).among t) cell = .ok (some new)) (hcode : HoldsCode new) :
    ∃ source, new.member? "source" = some source ∧ Canonical source := by
  cases kept_of_result h with
  | @other ms cellType typed hne =>
    rw [HoldsCode, Value.member?_object, get?_strip_cellType, typed] at hcode
    exact absurd (Option.some.inj hcode) hne
  | @code ms text lines typed formatted split =>
    exact ⟨_, Members.get?_insert_self _ _ _,
      canonical_lines split (Formatter.getLast?_of_trimmed formatted)⟩

end Cell

namespace Cleaner
open Notebook

variable {c : Cleaner} {language : String} {document cleaned : Value} {t : Tree}

/-- What a cleaner runs on code of a language that is not blank, before it takes away the newlines
at the end. -/
inductive RunsFor (c : Cleaner) : String → Formatter → Prop where
  | python {steps : List Formatter} {mask : Bool} (h : c.python = .python steps mask) :
      RunsFor c "python" (if mask then .masked (.inOrder steps) else .inOrder steps)
  | julia {φ : Formatter} (h : c.julia = .julia φ) : RunsFor c "julia" φ

/-- A document that was cleaned went through the formatter for its language, after that was
chosen. -/
theorem cleanCells_of_cleaned {φ : Formatter} (hl : WrittenIn document language)
    (hφ : c.RunsFor language φ)
    (h : ((c.cleanDocument document).run t).outcome = .ok (.cleaned, cleaned)) :
    ((cleanCells (.trimmed φ) language document).run ((c.choose language).run t).tree).outcome =
      .ok cleaned := by
  rw [cleanDocument, Attempt.outcome_bind_eq_ok_iff] at h
  obtain ⟨_, hname, h⟩ := h
  rw [Attempt.outcome_of, languageName_eq_ok_iff.mpr hl] at hname
  cases hname
  obtain ⟨choice, hchoice, h⟩ := Attempt.outcome_bind_eq_ok_iff.mp h
  rw [Attempt.run_of] at hchoice h
  have hformatter : c.formatter? choice = some (.trimmed φ) ∨ choice = .unavailable := by
    cases hφ with
    | python hpython =>
      obtain ⟨rfl, _⟩ | ⟨_, hjulia, _⟩ | rfl := choose_cases hchoice
      · exact .inl (congrArg some hpython)
      · exact absurd hjulia (by decide)
      · exact .inr rfl
    | julia hjulia =>
      obtain ⟨_, hpython⟩ | ⟨rfl, _⟩ | rfl := choose_cases hchoice
      · exact absurd hpython (by decide)
      · exact .inl (congrArg some hjulia)
      · exact .inr rfl
  rcases hformatter with hformatter | rfl
  · rw [hformatter] at h
    obtain ⟨_, hcells, h⟩ := Attempt.outcome_bind_eq_ok_iff.mp h
    cases h
    exact hcells
  · cases h

theorem visits_of_cleanCells {φ : Formatter}
    (h : ((cleanCells φ language document).run t).outcome = .ok cleaned) :
    ∃ items kept visits, document.member? "cells" = some (.array items) ∧
      cleaned.member? "cells" = some (.array kept) ∧ InTurn φ t visits ∧
      visits.map Visit.cell = items ∧ visits.filterMap Visit.result = kept := by
  rw [cleanCells, Attempt.outcome_bind_eq_ok_iff] at h
  obtain ⟨items, hitems, h⟩ := h
  obtain ⟨⟨tally, kept⟩, hvisits, h⟩ := Attempt.outcome_bind_eq_ok_iff.mp h
  obtain ⟨_, _, h⟩ := Attempt.outcome_bind_eq_ok_iff.mp h
  cases h
  have hcells := cells_eq_ok_iff.mp hitems
  obtain ⟨ms, rfl, _, hwith⟩ := withCells_of_cells hcells kept
  obtain ⟨visits, hturn, hvisited, hkept⟩ := Tally.visitAll_in_turn hvisits
  refine ⟨items, kept, visits, hcells, ?_, hturn, hvisited, hkept⟩
  rw [hwith]
  exact Members.get?_insert_self ms _ _

/-- Cells before and after they were visited in turn: a code cell was dropped just when it came to
nothing, and one that is left has a canonical source. -/
structure LeavesCanonical (φ : Formatter) (t : Tree) (items kept : List Value)
    (visits : List Visit) : Prop where
  turn : InTurn (.trimmed φ) t visits
  visited : visits.map Visit.cell = items
  left : visits.filterMap Visit.result = kept
  dropped : ∀ v ∈ visits, v.result = none ↔ Cell.ComesToNothing φ v.files v.cell
  canonical : ∀ cell ∈ kept, Cell.HoldsCode cell →
    ∃ source, cell.member? "source" = some source ∧ Cell.Canonical source

theorem leavesCanonical_of_inTurn {φ : Formatter} {visits : List Visit}
    (h : InTurn (.trimmed φ) t visits) :
    LeavesCanonical φ t (visits.map Visit.cell) (visits.filterMap Visit.result) visits := by
  refine ⟨h, rfl, rfl, fun v hv => ?_, fun cell hcell hcode => ?_⟩
  · rw [← Cell.result_trimmed_eq_none_iff, h.result_of_mem v hv, Except.ok.injEq]
  · obtain ⟨v, hv, hresult⟩ := List.mem_filterMap.mp hcell
    have hmade := h.result_of_mem v hv
    rw [hresult] at hmade
    exact Cell.canonical_of_result hmade hcode

/-- **Every code cell of a cleaned notebook has a canonical source, and a code cell is dropped just
when it is blank or comes to nothing but newlines**, whatever is run on the code. -/
theorem cleaned_sources_canonical {φ : Formatter} (hl : WrittenIn document language)
    (hφ : c.RunsFor language φ)
    (h : ((c.cleanDocument document).run t).outcome = .ok (.cleaned, cleaned)) :
    ∃ items kept visits, document.member? "cells" = some (.array items) ∧
      cleaned.member? "cells" = some (.array kept) ∧
      LeavesCanonical φ ((c.choose language).run t).tree items kept visits := by
  obtain ⟨_, _, visits, hitems, hcells, hturn, rfl, rfl⟩ :=
    visits_of_cleanCells (cleanCells_of_cleaned hl hφ h)
  exact ⟨_, _, visits, hitems, hcells, leavesCanonical_of_inTurn hturn⟩

/-- Makes newlines of `pass`, and puts some after everything else. -/
def looseFormatter : Formatter :=
  .ofFunction fun code => .ok (if code = "pass" then "\n\n" else code ++ "\n\n")

def looseCleaner : Cleaner :=
  ⟨.python [looseFormatter] true, .julia looseFormatter, pure false⟩

/-- A notebook with a title, a magic, code of which newlines are made, and blank code. -/
def looseNotebook : Value := pythonNotebook [
  .object [("cell_type", .string "markdown"), ("source", .string "# Title")],
  .object [("cell_type", .string "code"), ("source", .string "%time\ny")],
  .object [("cell_type", .string "code"), ("source", .string "pass")],
  .object [("cell_type", .string "code"), ("source", .string " \n")]]

def looseCleaned : Value := pythonNotebook [
  .object [("cell_type", .string "markdown"), ("source", .string "# Title"),
    ("execution_count", .null), ("outputs", .array [])],
  .object [("cell_type", .string "code"), ("source", .array [.string "%time\n", .string "y"]),
    ("execution_count", .null), ("outputs", .array [])]]

theorem cleaned_sources_canonical_loose :
    ((looseCleaner.cleanDocument looseNotebook).run ⟨[], []⟩).outcome =
        .ok (.cleaned, looseCleaned) ∧
      ∃ items kept visits, looseNotebook.member? "cells" = some (.array items) ∧
        looseCleaned.member? "cells" = some (.array kept) ∧
        LeavesCanonical (.masked (.inOrder [looseFormatter])) ⟨[], []⟩ items kept visits := by
  have hl : WrittenIn looseNotebook "python" := ⟨_, _, rfl, rfl, rfl⟩
  have hφ : looseCleaner.RunsFor "python" (.masked (.inOrder [looseFormatter])) :=
    @RunsFor.python looseCleaner [looseFormatter] true rfl
  have h : ((looseCleaner.cleanDocument looseNotebook).run ⟨[], []⟩).outcome =
      .ok (.cleaned, looseCleaned) := by decide +kernel
  exact ⟨h, cleaned_sources_canonical hl hφ h⟩

end Cleaner
end NotebookTidy
