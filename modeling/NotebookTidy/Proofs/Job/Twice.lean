import NotebookTidy.Proofs.Cleaner.Twice
import NotebookTidy.Proofs.Files.Tree
import NotebookTidy.Proofs.Job.Effect
import NotebookTidy.Proofs.Json.Accepted
import NotebookTidy.Proofs.Json.Writer

/-! Cleaning a file that is clean.

Cleaning keeps a document within the depth that a reader goes to, and its keys distinct
(`fits_of_cleaned`), so that what is written over a notebook after cleaning is read there, as the
text of a document that fits a reader (`rewritten_of_cleaned`). That document is read again as some
document (`cleaned_notebook_accepted`), and as the one that was meant, unless there are doubles in
it. A file that was cleaned in its place is thus left as it is by another job like the first, which
comes to the same (`cleaning_again_changes_nothing`). -/
namespace NotebookTidy
open Files Json

/-! ### Documents that fit -/

namespace Cell
variable {P : Number → Prop} {depth : Nat}

theorem fits_unhide {ms : Members} (h : ms.Fits P depth) : (unhide ms).Fits P depth :=
  h.modify _ fun _ hmetadata => hmetadata.mapMembers fun _ _ hms =>
    hms.modify _ fun _ hjupyter => hjupyter.mapMembers fun _ _ hms => hms.erase _

theorem fits_strip {ms : Members} (h : ms.Fits P (depth + 1)) : (strip ms).Fits P (depth + 1) := by
  have hempty : Value.Fits P (depth + 1) (.array []) :=
    Value.fits_array_iff.mpr fun _ hv => absurd hv List.not_mem_nil
  exact fits_unhide ((h.insert _ Value.fits_null).insert _ hempty)

theorem fits_setSource {ms : Members} (h : ms.Fits P (depth + 1)) (lines : List String) :
    (setSource ms lines).Fits P (depth + 1) := by
  refine h.insert _ (Value.fits_array_iff.mpr fun v hv => ?_)
  obtain ⟨line, _, rfl⟩ := List.mem_map.mp hv
  exact Value.fits_string line

/-- A cell that is kept is nested no deeper than it was, if there is room for its lines. -/
theorem fits_of_kept {f : String → Except Failure String} {cell new : Value}
    (h : Kept f cell new) (hfits : cell.Fits P (depth + 2)) : new.Fits P (depth + 2) := by
  cases h with
  | other => exact Value.fits_object_iff.mpr (fits_strip (Value.fits_object_iff.mp hfits))
  | code =>
    exact Value.fits_object_iff.mpr
      (fits_setSource (fits_strip (Value.fits_object_iff.mp hfits)) _)

theorem fits_of_forall₂_kept {f : String → Except Failure String} {cells kept : List Value}
    (h : List.Forall₂ (Kept f) cells kept) (hcells : ∀ cell ∈ cells, cell.Fits P (depth + 2)) :
    ∀ cell ∈ kept, cell.Fits P (depth + 2) := by
  induction h with
  | nil => exact hcells
  | cons hcell _ ih =>
    obtain ⟨hfirst, hrest⟩ := List.forall_mem_cons.mp hcells
    exact List.forall_mem_cons.mpr ⟨fits_of_kept hcell hfirst, ih hrest⟩

end Cell

theorem Json.Members.Fits.get? {P : Number → Prop} {depth : Nat} {ms : Members}
    (h : ms.Fits P depth) {key : String} {v : Value} (hv : ms.get? key = some v) :
    v.Fits P depth := by
  obtain ⟨m, hm, rfl⟩ := Option.map_eq_some_iff.mp hv
  exact h.values m (List.mem_of_find?_eq_some hm)

namespace Cleaner

variable {c : Cleaner} {python julia : String → Except Failure String} {available : Bool}

/-- A document that was cleaned is nested no deeper than it was, if there is room for the lines
of its cells. -/
theorem fits_of_cleaned (hc : c.Computes python julia available) {P : Number → Prop} {depth : Nat}
    {document after : Value} {status : Status} {t : Tree}
    (h : ((c.cleanDocument document).run t).outcome = .ok (status, after))
    (hfits : document.Fits P (depth + 4)) : after.Fits P (depth + 4) := by
  cases status with
  | cleaned =>
    obtain ⟨f, _, ms, items, kept, rfl, hcells, hkept, rfl⟩ := selects_of_cleaned hc h
    have hms := Value.fits_object_iff.mp hfits
    have hitems := Value.fits_array_iff.mp (hms.get? hcells)
    have hkeptFits := Cell.fits_of_forall₂_kept hkept fun cell hcell =>
      hitems cell (List.mem_of_mem_filter hcell)
    exact Value.fits_object_iff.mpr (hms.insert _ (Value.fits_array_iff.mpr hkeptFits))
  | uncleanable language =>
    have hsame := documentAfter_of_not_cleaned hc t (by rw [h]; nofun)
    rw [h] at hsame
    obtain rfl : after = document := hsame
    exact hfits

end Cleaner

namespace Notebook

/-- Without doubles, a document that fits a reader is plain. -/
theorem plain_of_fits {v : Value}
    (h : v.Fits (fun n => n.Scanned ∧ ∀ x, n ≠ .float x) maxDepth) : v.Plain := by
  refine ⟨h.distinct, fun n hn => ?_, h.nesting⟩
  obtain ⟨hscanned, hint⟩ := h.numbers n hn
  cases hscanned with
  | int low high => exact ⟨_, rfl, low, high⟩
  | float _ => exact absurd rfl (hint _)

theorem ne_empty_of_parse {text : String} {v : Value} (h : parse text = .ok v) : text ≠ "" := by
  rintro rfl
  have herror : (parse "").toOption = none := by decide +kernel
  rw [h] at herror
  cases herror

end Notebook

namespace Job
open Notebook

variable {c : Cleaner} {python julia : String → Except Failure String} {available : Bool}

theorem cleanText_outcome (text : String) (t : Tree) :
    ((cleanText c .notebook text).run t).outcome = (parse text).bind fun document =>
      ((c.cleanDocument document).run t).outcome.map fun done => (done.1, render done.2) := by
  rw [cleanText, Attempt.outcome_bind, Attempt.outcome_of]
  cases parse text with
  | error e => rfl
  | ok document =>
    simp only [Except.bind, Attempt.outcome_bind, Attempt.run_of, written_eq]
    cases ((c.cleanDocument document).run t).outcome <;> rfl

/-- The text of a notebook is cleaned if it is that of a document, and the document is cleaned. -/
theorem cleanText_notebook_iff {text cleaned : String} {t : Tree} {status : Status} :
    ((cleanText c .notebook text).run t).outcome = .ok (status, cleaned) ↔ ∃ document after,
      parse text = .ok document ∧
      ((c.cleanDocument document).run t).outcome = .ok (status, after) ∧
      render after = cleaned := by
  rw [cleanText_outcome]
  constructor
  · intro h
    obtain ⟨document, hparse, h⟩ := exists_of_bind_eq_ok h
    obtain ⟨done, hdone, h⟩ := exists_of_map_eq_ok h
    cases h
    exact ⟨document, done.2, hparse, hdone, rfl⟩
  · rintro ⟨document, after, hparse, hdone, rfl⟩
    simp only [hparse, hdone, Except.bind, Except.map]

/-- A notebook that is cleaned in its place is read as a document, cleaned as one, and written
over. -/
theorem effect_notebook_iff {path : Path} {t t' : Tree} {status : Status} :
    effect c ⟨path, .notebook, true⟩ t = (t', .ok status) ↔ ∃ text document after,
      t.readText path = .ok text ∧ parse text = .ok document ∧
      ((c.cleanDocument document).run t).outcome = .ok (status, after) ∧
      t.write path (Text.encode (render after)) = .ok t' := by
  rw [effect_eq_ok_iff]
  constructor
  · rintro ⟨started, text, cleaned, hstarted, hread, hcleaned, hwrite⟩
    obtain rfl : t = started := Except.ok.inj hstarted
    obtain ⟨document, after, hparse, hdone, rfl⟩ := cleanText_notebook_iff.mp hcleaned
    exact ⟨text, document, after, hread, hparse, hdone, hwrite⟩
  · rintro ⟨text, document, after, hread, hparse, hdone, hwrite⟩
    exact ⟨t, text, render after, rfl, hread,
      cleanText_notebook_iff.mpr ⟨document, after, hparse, hdone, rfl⟩, hwrite⟩

/-- What came of cleaning a notebook that was read fits a reader, too, with numbers of the kind that
the notebook has; and what is written of it over the notebook is read there, and may be written
there again to no effect. -/
theorem rewritten_of_cleaned (hc : c.Computes python julia available) {P : Number → Prop}
    {path : Path} {t t' : Tree} {text : String} {document after : Value} {status : Status}
    (hread : t.readText path = .ok text) (hparse : parse text = .ok document)
    (hnumbers : ∀ n, .number n ∈ document.parts → n.Scanned → P n)
    (hclean : ((c.cleanDocument document).run t).outcome = .ok (status, after))
    (hwrite : t.write path (Text.encode (render after)) = .ok t') :
    after.Fits P maxDepth ∧ t'.readText path = .ok (render after) ∧
      t'.write path (Text.encode (render after)) = .ok t' := by
  have hfits : after.Fits P (123 + 4) :=
    Cleaner.fits_of_cleaned hc hclean ((fits_of_parse hparse).mono hnumbers)
  obtain ⟨content, hcontent, hdecode⟩ := Tree.read_of_readText hread
  have hne : content ≠ [] := by
    rintro rfl
    exact ne_empty_of_parse hparse (Option.some.inj hdecode).symm
  obtain ⟨hnew, hsame⟩ := Tree.write_over hcontent hne hwrite
  exact ⟨hfits, Tree.readText_of_read hnew (Text.decode?_encode _), hsame⟩

/-- **What a job leaves where it cleaned a notebook is a notebook that is read**, whether the file
was cleaned in its place or in a copy, and whatever numbers are in it. -/
theorem cleaned_notebook_accepted (hc : c.Computes python julia available) (hfiles : c.KeepsFiles)
    {path : Path} {overwrite : Bool} {t t' : Tree} {status : Status}
    (h : (run c ⟨path, .notebook, overwrite⟩).leaves t = (t', .ok status)) :
    ∃ text document, t'.readText (target ⟨path, .notebook, overwrite⟩) = .ok text ∧
      parse text = .ok document := by
  rw [leaves_run hfiles] at h
  obtain ⟨started, text, cleaned, _, hread, hcleaned, hwrite⟩ := effect_eq_ok_iff.mp h
  obtain ⟨document, after, hparse, hdone, rfl⟩ := cleanText_notebook_iff.mp hcleaned
  obtain ⟨hfits, hnew, _⟩ :=
    rewritten_of_cleaned hc hread hparse (fun _ _ hscanned => hscanned) hdone hwrite
  obtain ⟨again, hagain⟩ := parse_render_of_fits hfits
  exact ⟨render after, again, hnew, hagain⟩

/-- The text of a notebook with a double that is not steady. -/
def unsteadyText : String :=
  "\x7b\"metadata\": \x7b\"language_info\": \x7b\"name\": \"python\"\x7d\x7d, " ++
    "\"cells\": [], \"x\": 7500000000000004e0\x7d"

/-- A file with such a notebook is copied, and the copy is cleaned. -/
theorem cleaned_notebook_accepted_copy :
    let c : Cleaner := .ofFunctions .ok .ok false
    let job : Job := ⟨.ofString "n", .notebook, false⟩
    let t : Tree := ⟨[([Text.encode "n"], .file (Text.encode unsteadyText))], []⟩
    ∃ t', (run c job).leaves t = (t', .ok .cleaned) ∧
      ∃ text document, t'.readText (target job) = .ok text ∧ parse text = .ok document := by
  intro c job t
  have hstatus : ((run c job).leaves t).2 = .ok .cleaned := by decide +kernel
  obtain ⟨t', hrun⟩ : ∃ t', (run c job).leaves t = (t', .ok .cleaned) := by
    generalize (run c job).leaves t = done at hstatus
    obtain ⟨t', status⟩ := done
    exact ⟨t', congrArg (t', ·) hstatus⟩
  exact ⟨t', hrun, cleaned_notebook_accepted (Cleaner.computes_ofFunctions .ok .ok false)
    (Cleaner.keepsFiles_ofFunctions .ok .ok false) hrun⟩

/-- **Cleaning what was cleaned changes nothing**: neither a document that cleaning succeeded
on, nor a file that was cleaned in its place, unless there are doubles in it. -/
theorem cleaning_again_changes_nothing (hc : c.Computes python julia available)
    (hp : Settles python) (hj : Settles julia) :
    (∀ document status after t t', ((c.cleanDocument document).run t).outcome =
      .ok (status, after) → ((c.cleanDocument after).run t').outcome = .ok (status, after)) ∧
    (c.KeepsFiles → ∀ path text document status t t', t.readText path = .ok text →
      parse text = .ok document → (∀ x, .number (.float x) ∉ document.parts) →
      (run c ⟨path, .notebook, true⟩).leaves t = (t', .ok status) →
      (run c ⟨path, .notebook, true⟩).leaves t' = (t', .ok status)) := by
  refine ⟨fun _ _ _ _ t' h => Cleaner.cleanDocument_again hc hp hj h t', ?_⟩
  intro hfiles path text document status t t' hread hparse hwhole hrun
  rw [leaves_run hfiles] at hrun ⊢
  obtain ⟨text', document', after, hread', hparse', hclean, hwrite⟩ := effect_notebook_iff.mp hrun
  obtain rfl : text = text' := Except.ok.inj (hread.symm.trans hread')
  obtain rfl : document = document' := Except.ok.inj (hparse.symm.trans hparse')
  have hints : ∀ n, .number n ∈ document.parts → n.Scanned → n.Scanned ∧ ∀ x, n ≠ .float x :=
    fun n hn hscanned => ⟨hscanned, fun x hx => hwhole x (hx ▸ hn)⟩
  obtain ⟨hfits, hnew, hsame⟩ := rewritten_of_cleaned hc hread hparse hints hclean hwrite
  exact effect_notebook_iff.mpr ⟨render after, after, after, hnew,
    parse_of_plain (plain_of_fits hfits), Cleaner.cleanDocument_again hc hp hj hclean t', hsame⟩

theorem settles_dropPass : Settles Cleaner.dropPass := by
  intro code formatted h hne
  have hsame : formatted = code := by
    rw [Cleaner.dropPass] at h
    split at h
    · cases h
      exact absurd rfl hne
    · split at h
      · cases h
      · exact (Except.ok.inj h).symm
  rw [hsame] at h ⊢
  exact h

/-- A notebook with a cell that is dropped and one that is not. -/
theorem cleaning_again_changes_nothing_mixed :
    let c : Cleaner := .ofFunctions Cleaner.dropPass .ok false
    let document := Cleaner.pythonNotebook [
      .object [("cell_type", .string "code"), ("source", .string "pass")],
      .object [("cell_type", .string "code"), ("source", .string "x\ny")]]
    let after := Cleaner.pythonNotebook [
      .object [("cell_type", .string "code"), ("source", .array [.string "x\n", .string "y"]),
        ("execution_count", .null), ("outputs", .array [])]]
    let t := (Tree.mk [] []).put [Text.encode "a"] (.file (Text.encode (render document)))
    let job := run c ⟨.ofString "a", .notebook, true⟩
    ((c.cleanDocument document).run t).outcome = .ok (.cleaned, after) ∧
      ((c.cleanDocument after).run t).outcome = .ok (.cleaned, after) ∧
      ∃ t', job.leaves t = (t', .ok .cleaned) ∧ job.leaves t' = (t', .ok .cleaned) := by
  intro c document after t job
  have hagain := cleaning_again_changes_nothing
    (Cleaner.computes_ofFunctions Cleaner.dropPass .ok false) settles_dropPass (fun _ _ _ _ => rfl)
  have hdone : ((c.cleanDocument document).run t).outcome = .ok (.cleaned, after) := by
    decide +kernel
  have hfiles : c.KeepsFiles := Cleaner.keepsFiles_ofFunctions Cleaner.dropPass .ok false
  have hnumbers : ∀ n, .number n ∈ document.parts → n = .int 4 := by
    simp [document, Cleaner.pythonNotebook, Value.parts, Value.partsOfItems, Value.partsOfMembers]
  have hparse : parse (render document) = .ok document := by
    refine parse_of_plain ⟨?_, fun n hn => ?_, by decide⟩
    · intro ms hms
      simp [document, Cleaner.pythonNotebook, Value.parts, Value.partsOfItems,
        Value.partsOfMembers] at hms
      obtain rfl | rfl | rfl | rfl | rfl := hms <;> decide
    · exact ⟨4, hnumbers n hn, by decide, by decide⟩
  have hempty : (Tree.mk [] []).creatable (.ofString "a") = .ok [Text.encode "a"] := by
    decide +kernel
  have hfill : (Tree.mk [] []).Fillable [Text.encode "a"] := .inl rfl
  obtain ⟨hresolve, hcreatable⟩ := Tree.put_at hempty hfill (Text.encode (render document))
  have hfile : t.lookup [Text.encode "a"] = some (.file (Text.encode (render document))) := by
    rw [Tree.lookup_put _ hfill.ne_nil, if_pos rfl]
  have hread : t.readText (.ofString "a") = .ok (render document) :=
    Tree.readText_of_read (Tree.read_of_file hresolve hfile) (Text.decode?_encode _)
  have hjob := (leaves_run hfiles _ t).trans (effect_notebook_iff.mpr
    ⟨_, _, _, hread, hparse, hdone, Tree.write_of_fillable hcreatable (.inr ⟨_, hfile⟩) _⟩)
  exact ⟨hdone, hagain.1 _ _ _ _ _ hdone, _, hjob, hagain.2 hfiles _ _ _ _ _ _ hread hparse
    (fun x hx => by cases hnumbers _ hx) hjob⟩

end Job
end NotebookTidy
