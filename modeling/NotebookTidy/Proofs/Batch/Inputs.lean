import NotebookTidy.Cli.Run
import NotebookTidy.Proofs.Batch.Turns
import NotebookTidy.Proofs.Files.Sibling

/-! The files of a batch that is not to overwrite them.

Jobs that leave their files and clean copies beside them write where these copies go, and nowhere
else (`puts_beside`). So, in whatever order their turns are taken, a file is as it was unless
it is where the copy of another file goes (`batch_keeps_other_files`). A file that is, is
overwritten with that copy, also if it is itself to be cleaned and kept
(`batch_overwrites_listed_copy`). -/
namespace NotebookTidy
open Files Files.Tree Attempt

namespace Job
variable {c : Cleaner} {job : Job} {M : Set Location} {t s : Tree}

/-- A job that cleans a copy puts files where the copy may go. -/
theorem puts_beside (hbeside : job.overwrite = false)
    (hM : ∀ l, t.creatable job.path.cleaned = .ok l → t.Fillable l → l ∈ M) (h : FilledAt M t s)
    (stage : Stage) : job.Puts s stage ⊆ M := by
  have htarget := target_of_beside hbeside
  intro l hl
  obtain ⟨hcreatable, hfill⟩ := room_back h (puts_subset job s stage hl)
  exact hM l (htarget ▸ hcreatable) hfill

theorem filledAt_run (hk : c.KeepsFiles) (ht : t.Direct) (hbeside : job.overwrite = false)
    (hM : ∀ l, t.creatable job.path.cleaned = .ok l → t.Fillable l → l ∈ M) (h : FilledAt M t s) :
    FilledAt M t ((job.run c).run s).tree := by
  have hturns : ∀ k (x : Tree × Stage), FilledAt M t x.1 → FilledAt M t ((job.advance c)^[k] x).1 := by
    intro k
    induction k with
    | zero => exact fun x hx => hx
    | succ k ih =>
      exact fun x hx => ih _ (filledAt_advance hk (hx.direct ht) (puts_beside hbeside hM hx x.2) hx)
  have hrun := hturns 4 (s, .waiting) h
  rwa [advance_four] at hrun

end Job

namespace Batch
variable {c : Cleaner} {t : Tree} {paths : List Path}

/-- Where the cleaned copies of some files go, unless something else than a file is there. -/
def Copies (t : Tree) (paths : List Path) : Set Location :=
  {l | t.Fillable l ∧ ∃ p ∈ paths, t.creatable p.cleaned = .ok l}

theorem filledAt_interleave (hk : c.KeepsFiles) (ht : t.Direct) (schedule : List (Fin paths.length)) :
    FilledAt (Copies t paths) t (interleave c (jobsFor false paths) t schedule).tree := by
  refine interleave_induction (P := fun s => FilledAt (Copies t paths) t s.tree)
    (filledAt_refl fun l hl => hl.1) (fun s i hs => ?_) schedule
  have hbeside : (jobsFor false paths i).overwrite = false := rfl
  have hM : ∀ l, t.creatable (jobsFor false paths i).path.cleaned = .ok l → t.Fillable l →
      l ∈ Copies t paths := fun l hl hfill => ⟨hfill, paths[i], List.getElem_mem _, hl⟩
  exact Job.filledAt_advance hk (hs.direct ht) (Job.puts_beside hbeside hM hs _) hs

/-- The program takes the paths of its command line one after the other. -/
theorem agree_processAll (hk : c.KeepsFiles) (ht : t.Direct) {taken : List Path} (htaken : taken ⊆ paths) :
    Agree (fun s s' => s = s' ∧ FilledAt (Copies t paths) t s) (Cli.processAll c false taken)
      (Cli.processAll c false taken) := by
  induction taken with
  | nil => exact agree_pure 0
  | cons path rest ih =>
    obtain ⟨hpath, hrest⟩ := List.cons_subset.mp htaken
    have hjob : Agree (fun s s' => s = s' ∧ FilledAt (Copies t paths) t s)
        ((jobFor false path).run c) ((jobFor false path).run c) := by
      rintro s _ ⟨rfl, hs⟩
      exact ⟨rfl, rfl, Job.filledAt_run hk ht rfl (fun l hl hfill => ⟨hfill, path, hpath, hl⟩) hs⟩
    refine .bind ?_ fun well => .bind (ih hrest) fun failures => agree_pure _
    rw [Cli.processPath]
    split
    · refine .bind hjob.caught fun result => ?_
      split
      · exact agree_pure true
      · exact .bind (agree_tell _ _) fun _ => agree_pure false
    · exact .bind (agree_tell _ _) fun _ => agree_pure false

/-- **A batch that is not to overwrite its files keeps every file that is not in the place of
another's copy**: however the jobs take their turns, and at whatever moment, and in a run of the
program. -/
theorem batch_keeps_other_files (hlinks : ∀ l target, t.lookup l ≠ some (.link target)) {p : Path}
    {content : Bytes} (hread : t.read p = .ok content)
    (hapart : ∀ q ∈ paths, q ≠ p → ∀ l, t.creatable q.cleaned = .ok l → t.resolve p ≠ .ok l) :
    (∀ c : Cleaner, c.KeepsFiles →
      (∀ schedule, (interleave c (jobsFor false paths) t schedule).tree.read p = .ok content) ∧
        ((cleanAll c false paths).run t).tree.read p = .ok content) ∧
    ∀ run : Runner, run.KeepsFiles → ∀ support filter args options,
      Cli.readArguments args = .ok options → options.overwrite = false →
      options.paths.map Path.ofString = paths →
      (Cli.run run support filter args t).tree.read p = .ok content := by
  have ht : t.Direct := fun l target hl => absurd hl (hlinks l target)
  have hkept : ∀ {s : Tree}, FilledAt (Copies t paths) t s → s.read p = .ok content := by
    intro s hs
    refine hs.read hread fun l hl hcopy => ?_
    obtain ⟨hfill, q, hq, hcreatable⟩ := hcopy
    by_cases hqp : q = p
    · -- the copy of a file is another file
      subst hqp
      obtain ⟨content, hfile⟩ := hfill.file_of_read hl hread
      exact cleaned_elsewhere hlinks hl hfile hcreatable rfl
    · exact hapart q hq hqp l hcreatable hl
  constructor
  · intro c hk
    have horder : ((cleanAll c false paths).run t).tree = _ :=
      congrArg Prod.fst (cleanAll_in_order c false paths t)
    rw [horder]
    exact ⟨fun schedule => hkept (filledAt_interleave hk ht schedule),
      hkept (filledAt_interleave hk ht _)⟩
  · rintro run hrun support filter args options hargs hbeside rfl
    rw [Cli.run, hargs]
    dsimp only
    cases Cli.loadConfig support t options.config with
    | error e => exact hread
    | ok config =>
      have hall := agree_processAll (Config.keepsFiles_cleaner hrun config) ht
        (List.Subset.refl (options.paths.map Path.ofString)) t t ⟨rfl, filledAt_refl fun l hl => hl.1⟩
      rw [← hbeside] at hall
      exact hkept hall.2.2

/-- Two scripts side by side: the second is kept in every order of the turns. -/
theorem batch_keeps_other_files_pair :
    let a : Path := .ofString "a.py"
    let b : Path := .ofString "b.py"
    let t : Tree := ⟨[([a.bytes], .file (Text.encode "x")), ([b.bytes], .file (Text.encode "y"))], []⟩
    (∀ l target, t.lookup l ≠ some (.link target)) ∧ t.read b = .ok (Text.encode "y") ∧
      (Cleaner.ofFunctions .ok .ok false).KeepsFiles ∧
      ∀ schedule, (interleave (.ofFunctions .ok .ok false) (jobsFor false [a, b]) t schedule).tree.read b =
        .ok (Text.encode "y") := by
  intro a b t
  have hlinks : ∀ l target, t.lookup l ≠ some (.link target) :=
    (plain_of_entries (by simp [t])).no_link
  have hread : t.read b = .ok (Text.encode "y") := by decide +kernel
  have hkeeps := Cleaner.keepsFiles_ofFunctions .ok .ok false
  have hapart : ∀ q ∈ [a, b], q ≠ b → ∀ l, t.creatable q.cleaned = .ok l → t.resolve b ≠ .ok l := by
    intro q hq hqb l hl hb
    obtain rfl | rfl : q = a ∨ q = b := by simpa using hq
    · have hresolve : t.resolve b = .ok [b.bytes] := by decide +kernel
      obtain rfl := Except.ok.inj (hresolve.symm.trans hb)
      revert hl
      decide +kernel
    · exact hqb rfl
  refine ⟨hlinks, hread, hkeeps, fun schedule => ?_⟩
  exact ((batch_keeps_other_files hlinks hread hapart).1 _ hkeeps).1 schedule

/-- A script that is listed after another, or before it, and is where the other's copy goes. -/
theorem batch_overwrites_listed_copy :
    let a : Path := .ofString "a.py"
    let b : Path := .ofString "a.cleaned.py"
    let t : Tree := ⟨[([a.bytes], .file (Text.encode "x")), ([b.bytes], .file (Text.encode "y"))], []⟩
    let c : Cleaner := .ofFunctions .ok .ok false
    (∀ l target, t.lookup l ≠ some (.link target)) ∧ c.KeepsFiles ∧
      t.read b = .ok (Text.encode "y") ∧
      ((cleanAll c false [a, b]).run t).tree.read b = .ok (Text.encode "x\n") ∧
      ((cleanAll c false [b, a]).run t).tree.read b = .ok (Text.encode "x\n") ∧
      ((Cli.processAll c false [a, b]).run t).tree.read b = .ok (Text.encode "x\n") := by
  intro a b t c
  refine ⟨(plain_of_entries (by simp [t])).no_link, Cleaner.keepsFiles_ofFunctions .ok .ok false, ?_⟩
  decide +kernel

end Batch
end NotebookTidy
