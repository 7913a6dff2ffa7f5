import Mathlib.Logic.Function.Iterate
import NotebookTidy.Proofs.Agreement
import NotebookTidy.Proofs.Files.Filled

/-! The turns of a job.

A job goes through stages: it copies its file, reads, cleans and writes, and then its result is
entered (`Job.advance`). Four turns take it from its beginning to its end (`Job.advance_four`), and
tell what the job tells when it runs (`Job.told_four`).

In a turn a job puts at most one file (`Job.Puts`), and among files that differ only where the job
does not look it makes the same change, and comes to the same stage (`Job.sameChange_advance`). -/
namespace NotebookTidy
open Files Files.Tree

/-- How far a job has got. -/
inductive Stage where
  | waiting
  | placed
  | loaded (text : String)
  | finished (result : Result)
  | entered (result : Result)

namespace Job
variable {α : Type}

/-- The files and the stage after a step: one that fails is the last of the job. -/
def followedBy (next : α → Stage) : Tree × Except Failure α → Tree × Stage
  | (t, .ok a) => (t, next a)
  | (t, .error e) => (t, .finished (.error e))

/-- What holds of the stage that follows, and of a failure, holds after the step. -/
theorem followedBy_ind {P : Tree × Stage → Prop} {next : α → Stage} {left : Tree × Except Failure α}
    (hok : ∀ a, left.2 = .ok a → P (left.1, next a))
    (herror : ∀ e, P (left.1, .finished (.error e))) : P (followedBy next left) := by
  obtain ⟨t, e | a⟩ := left
  · exact herror e
  · exact hok a rfl

/-- One turn of a job. -/
def advance (c : Cleaner) (job : Job) : Tree × Stage → Tree × Stage
  | (t, .waiting) => followedBy (fun _ => .placed) (job.copy.leaves t)
  | (t, .placed) => followedBy .loaded (job.load.leaves t)
  | (t, .loaded text) => followedBy (fun status => .finished (.ok status)) ((job.finish c text).leaves t)
  | (t, .finished result) => (t, .entered result)
  | (t, .entered result) => (t, .entered result)

/-- What a job tells in a turn. -/
def tells (c : Cleaner) (job : Job) : Tree × Stage → List Event
  | (t, .waiting) => (job.copy.run t).events
  | (t, .placed) => (job.load.run t).events
  | (t, .loaded text) => ((job.finish c text).run t).events
  | (_, .finished _) => []
  | (_, .entered _) => []

variable {c : Cleaner} {job : Job} {t : Tree}

/-! ### A job on its own -/

/-- The turns of a job on its own, up to the one in which it is finished. -/
inductive Reaches (c : Cleaner) (job : Job) (t : Tree) : Done Status → Prop where
  | copying {after : Tree} {result : Result}
      (h : job.advance c (t, .waiting) = (after, .finished result)) :
      Reaches c job t ⟨after, job.tells c (t, .waiting), result⟩
  | reading {copied after : Tree} {result : Result}
      (h : job.advance c (t, .waiting) = (copied, .placed))
      (h' : job.advance c (copied, .placed) = (after, .finished result)) :
      Reaches c job t ⟨after, job.tells c (t, .waiting) ++ job.tells c (copied, .placed), result⟩
  | writing {copied read after : Tree} {text : String} {result : Result}
      (h : job.advance c (t, .waiting) = (copied, .placed))
      (h' : job.advance c (copied, .placed) = (read, .loaded text))
      (h'' : job.advance c (read, .loaded text) = (after, .finished result)) :
      Reaches c job t ⟨after, job.tells c (t, .waiting) ++ (job.tells c (copied, .placed) ++
        job.tells c (read, .loaded text)), result⟩

theorem reaches_run (c : Cleaner) (job : Job) (t : Tree) :
    Reaches c job t ((job.run c).run t) := by
  rw [run]
  cases hcopy : (job.copy.run t).outcome with
  | error e =>
    rw [Attempt.run_bind_of_error hcopy]
    exact .copying (by simp only [advance, Attempt.leaves, hcopy, followedBy])
  | ok _ =>
    have hplaced : job.advance c (t, .waiting) = ((job.copy.run t).tree, .placed) := by
      simp only [advance, Attempt.leaves, hcopy, followedBy]
    rw [Attempt.run_bind_of_ok hcopy]
    cases hload : (job.load.run (job.copy.run t).tree).outcome with
    | error e =>
      rw [Attempt.run_bind_of_error hload]
      exact .reading hplaced (by simp only [advance, Attempt.leaves, hload, followedBy])
    | ok text =>
      rw [Attempt.run_bind_of_ok hload]
      refine .writing hplaced (by simp only [advance, Attempt.leaves, hload, followedBy]) ?_
      simp only [advance, Attempt.leaves]
      cases ((job.finish c text).run _).outcome <;> rfl

/-- Four turns are what a job takes. -/
theorem advance_four (c : Cleaner) (job : Job) (t : Tree) : (job.advance c)^[4] (t, .waiting) =
    (((job.run c).run t).tree, .entered ((job.run c).run t).outcome) := by
  have hentered : ∀ t result, job.advance c (t, .entered result) = (t, .entered result) :=
    fun _ _ => rfl
  have hfinished : ∀ t result, job.advance c (t, .finished result) = (t, .entered result) :=
    fun _ _ => rfl
  have hreaches := reaches_run c job t
  generalize (job.run c).run t = done at hreaches ⊢
  simp only [Function.iterate_succ, Function.iterate_zero, Function.comp_apply, id]
  cases hreaches with
  | copying h => rw [h, hfinished, hentered, hentered]
  | reading h h' => rw [h, h', hfinished, hentered]
  | writing h h' h'' => rw [h, h', h'', hfinished]

/-- What a job on its own tells in some turns. -/
def told (c : Cleaner) (job : Job) : Nat → Tree × Stage → List Event
  | 0, _ => []
  | k + 1, x => job.tells c x ++ job.told c k (job.advance c x)

/-- What a job tells in its four turns is what it tells when it runs. -/
theorem told_four (c : Cleaner) (job : Job) (t : Tree) :
    job.told c 4 (t, .waiting) = ((job.run c).run t).events := by
  have hentered : ∀ k t result, job.told c k (t, .entered result) = [] := by
    intro k t result
    induction k with
    | zero => rfl
    | succ k ih => exact ih
  have hfinished : ∀ k t result, job.told c k (t, .finished result) = [] := by
    intro k t result
    cases k with
    | zero => rfl
    | succ k => exact hentered k t result
  have hreaches := reaches_run c job t
  generalize (job.run c).run t = done at hreaches ⊢
  cases hreaches with
  | copying h => rw [told, h, hfinished, List.append_nil]
  | reading h h' => rw [told, h, told, h', hfinished, List.append_nil]
  | writing h h' h'' => rw [told, h, told, h', told, h'', hfinished, List.append_nil]

/-- A job whose result is entered has come to what it comes to on its own. -/
theorem eq_of_entered {k : Nat} {after : Tree} {result : Result}
    (h : (job.advance c)^[k] (t, .waiting) = (after, .entered result)) :
    after = ((job.run c).run t).tree ∧ result = ((job.run c).run t).outcome := by
  have hfixed : ∀ k t result, (job.advance c)^[k] (t, .entered result) = (t, .entered result) :=
    fun k t result => Function.iterate_fixed rfl k
  have hmore := congrArg (job.advance c)^[4] h
  rw [hfixed, ← Function.iterate_add_apply, Nat.add_comm, Function.iterate_add_apply,
    advance_four, hfixed] at hmore
  obtain ⟨htree, hstage⟩ := Prod.mk.inj hmore
  exact ⟨htree.symm, (Stage.entered.inj hstage).symm⟩

end Job

namespace Stage

/-- How many turns were taken, at least. -/
def rank : Stage → Nat
  | .waiting => 0
  | .placed => 1
  | .loaded _ => 2
  | .finished _ => 3
  | .entered _ => 4

theorem entered_of_rank {stage : Stage} (h : 4 ≤ stage.rank) : ∃ result, stage = .entered result := by
  cases stage with
  | entered result => exact ⟨result, rfl⟩
  | _ => simp [rank] at h

end Stage

theorem Job.rank_advance (c : Cleaner) (job : Job) (t : Tree) (stage : Stage) :
    min 4 (stage.rank + 1) ≤ (job.advance c (t, stage)).2.rank := by
  have hfollowed : ∀ {α : Type} {next : α → Stage} {left : Tree × Except Failure α} (n : Nat),
      (∀ a, n ≤ (next a).rank) → n ≤ 3 → n ≤ (Job.followedBy next left).2.rank :=
    fun n hnext hn => Job.followedBy_ind (P := fun x => n ≤ x.2.rank) (fun a _ => hnext a) fun _ => hn
  cases stage with
  | waiting => exact hfollowed 1 (fun _ => Nat.le_refl _) (by decide)
  | placed => exact hfollowed 2 (fun _ => Nat.le_refl _) (by decide)
  | loaded text => exact hfollowed 3 (fun _ => Nat.le_refl _) (by decide)
  | finished result => exact Nat.le_refl _
  | entered result => exact Nat.min_le_left _ _


/-! ### What a turn changes -/

namespace Job

/-- Where the target of a job may be put. -/
def Room (job : Job) (t : Tree) : Set Location := {l | t.creatable job.target = .ok l ∧ t.Fillable l}

/-- Where a job may put a file in a turn: a copy of its file, if it is to keep it and the file is
there, or later what it makes of the text. -/
def Puts (job : Job) (t : Tree) : Stage → Set Location
  | .waiting => {l | job.overwrite = false ∧ t.FileAt job.path ∧ l ∈ job.Room t}
  | .loaded _ => job.Room t
  | _ => ∅

variable {c : Cleaner} {job : Job} {M : Set Location} {t t' : Tree}

theorem puts_subset (job : Job) (t : Tree) (stage : Stage) : job.Puts t stage ⊆ job.Room t := by
  intro l hl
  cases stage with
  | waiting => exact hl.2.2
  | loaded text => exact hl
  | _ => exact absurd hl (Set.notMem_empty l)

/-- Where the target may be put, it could be put before other files were. -/
theorem room_back (h : FilledAt M t t') : job.Room t' ⊆ job.Room t :=
  fun _ hl => ⟨h.creatable_back hl.1, h.fillable_back hl.2⟩

theorem leaves_load (job : Job) (t : Tree) :
    job.load.leaves t = (t, (t.readText job.target).mapError .io) := rfl

theorem sameOutcome_started (ht : t.Direct) (h : FilledAt M t t') (hpath : t.Clear M job.path)
    (htarget : t.Clear M job.target) :
    SameOutcome (job.Puts t .waiting) t t' (job.started t) (job.started t') := by
  cases hplace : job.overwrite with
  | true =>
    rw [started_of_overwrite hplace, started_of_overwrite hplace]
    exact .ok .kept
  | false =>
    rw [started_of_beside hplace, started_of_beside hplace]
    exact h.copy ht hpath htarget fun hfile l hl hfill => ⟨hplace, hfile, hl, hfill⟩

/-- **A turn is the same turn among files that differ only where the job does not look.** -/
theorem sameChange_advance (hk : c.KeepsFiles) (ht : t.Direct) (h : FilledAt M t t')
    (hpath : t.Clear M job.path) (htarget : t.Clear M job.target)
    (hcleans : ∀ kind text, ((cleanText c kind text).run t').outcome =
      ((cleanText c kind text).run t).outcome) (stage : Stage) :
    (job.advance c (t', stage)).2 = (job.advance c (t, stage)).2 ∧
      SameChange (job.Puts t stage) t t' (job.advance c (t, stage)).1
        (job.advance c (t', stage)).1 := by
  have hfollowed : ∀ {α : Type} {W : Set Location} (next : α → Stage)
      {left left' : Tree × Except Failure α}, left'.2 = left.2 → SameChange W t t' left.1 left'.1 →
      (followedBy next left').2 = (followedBy next left).2 ∧
        SameChange W t t' (followedBy next left).1 (followedBy next left').1 := by
    rintro α W next ⟨a, e | x⟩ ⟨b, _⟩ rfl hchange
    · exact ⟨rfl, hchange⟩
    · exact ⟨rfl, hchange⟩
  cases stage with
  | waiting =>
    have hstarted := sameOutcome_started ht h hpath htarget
    rw [advance, advance, leaves_copy, leaves_copy]
    generalize job.started t = left, job.started t' = left' at hstarted
    cases hstarted with
    | ok hchange => exact hfollowed _ rfl hchange
    | error e => exact hfollowed _ rfl .kept
  | placed =>
    rw [advance, advance, leaves_load, leaves_load, h.readText_eq htarget]
    exact hfollowed _ rfl .kept
  | loaded text =>
    rw [advance, advance, leaves_finish hk, leaves_finish hk, hcleans]
    cases ((cleanText c job.kind text).run t).outcome with
    | error e => exact hfollowed _ rfl .kept
    | ok done =>
      have hroom : ∀ l, t.creatable job.target = .ok l → t.Fillable l → l ∈ job.Room t :=
        fun l hl hfill => ⟨hl, hfill⟩
      have hwritten := h.write ht htarget hroom (Text.encode done.2)
      dsimp only
      generalize t.write job.target (Text.encode done.2) = left,
        t'.write job.target (Text.encode done.2) = left' at hwritten
      cases hwritten with
      | ok hchange => exact hfollowed _ rfl hchange
      | error e => exact hfollowed _ rfl .kept
  | finished result => exact ⟨rfl, .kept⟩
  | entered result => exact ⟨rfl, .kept⟩

/-- Among files of which some were put at the locations, a turn puts at most one more. -/
theorem filledAt_advance {s : Tree} {stage : Stage} (hk : c.KeepsFiles) (ht : t.Direct)
    (hputs : job.Puts t stage ⊆ M) (h : FilledAt M s t) :
    FilledAt M s (job.advance c (t, stage)).1 := by
  have hself : FilledAt ∅ t t := filledAt_refl nofun
  have hclear : ∀ p, t.Clear ∅ p := fun p => ⟨fun _ _ hl => hl, nofun⟩
  obtain ⟨_, hchange⟩ := sameChange_advance hk ht hself (hclear _) (hclear _) (fun _ _ => rfl) stage
  exact hchange.left hputs h

end Job
end NotebookTidy
