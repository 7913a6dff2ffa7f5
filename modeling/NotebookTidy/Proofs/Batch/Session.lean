import Mathlib.Data.Fintype.Card
import NotebookTidy.Proofs.Batch.Turns
import NotebookTidy.Proofs.Job.Toolchain

/-! Sessions.

What jobs that take turns tell is what each tells in its turns (`Batch.heard`), so that cleaning
files one after the other is letting their jobs take turns in order, down to the events
(`Batch.cleanAll_eq_together`). A job calls the probe in the turn in which it cleans a notebook in
Julia, and it has that turn if it has found one (`Batch.count_heard`). In a session files, documents
and batches of files are cleaned, each among the files that are there by then, and the probe is
called once for each notebook in Julia that is found (`Session.called_once_for_each`), also where
files are cleaned one after the other (`Operation.marks_cleanAll`). -/
namespace NotebookTidy
open Files Json Notebook Attempt

namespace Job

/-- The job has read a notebook in Julia, and is to clean it next. -/
def HoldsJulia (job : Job) : Stage → Prop
  | .loaded text => job.Asks text
  | _ => False

instance (job : Job) (stage : Stage) : Decidable (job.HoldsJulia stage) :=
  match stage with
  | .loaded text => inferInstanceAs (Decidable (job.Asks text))
  | .waiting => .isFalse id
  | .placed => .isFalse id
  | .finished _ => .isFalse id
  | .entered _ => .isFalse id

variable {c : Cleaner} {mark : Event → Bool} {job : Job}

theorem rank_of_holdsJulia {stage : Stage} (h : job.HoldsJulia stage) : stage.rank = 2 := by
  cases stage with
  | loaded text => rfl
  | _ => exact h.elim

theorem count_tells (hc : c.CallsMarked mark) (t : Tree) (stage : Stage) :
    (job.tells c (t, stage)).countP mark = if job.HoldsJulia stage then 1 else 0 := by
  cases stage with
  | waiting => exact unmarked_copy hc job t
  | placed => exact unmarked_load job t
  | loaded text => exact marks_finish hc job text t
  | finished result => rfl
  | entered result => rfl

end Job

namespace Batch
variable {n : Nat} {c : Cleaner} {mark : Event → Bool} {jobs : Fin n → Job}

/-! ### What is told in turns -/

/-- What jobs tell that take turns as they are scheduled. -/
def heard (c : Cleaner) (jobs : Fin n → Job) : Progress n → List (Fin n) → List Event
  | _, [] => []
  | s, i :: schedule =>
    (jobs i).tells c (s.tree, s.stage i) ++ heard c jobs (turn c jobs s i) schedule

theorem heard_append (s : Progress n) (schedule schedule' : List (Fin n)) :
    heard c jobs s (schedule ++ schedule') =
      heard c jobs s schedule ++ heard c jobs (schedule.foldl (turn c jobs) s) schedule' := by
  induction schedule generalizing s with
  | nil => rfl
  | cons i schedule ih => rw [List.cons_append, heard, heard, ih, List.append_assoc]; rfl

theorem heard_replicate (s : Progress n) (i : Fin n) (k : Nat) :
    heard c jobs s (List.replicate k i) = (jobs i).told c k (s.tree, s.stage i) := by
  induction k generalizing s with
  | zero => rfl
  | succ k ih =>
    rw [List.replicate_succ, heard, ih, stage_turn_self]
    rfl

/-- Jobs that take turns, as they are scheduled. -/
def together (c : Cleaner) (jobs : Fin n → Job) (schedule : List (Fin n)) : Attempt Results :=
  ⟨fun t =>
    let s := interleave c jobs t schedule
    ⟨s.tree, heard c jobs ⟨t, fun _ => .waiting, []⟩ schedule, .ok s.results⟩⟩

theorem events_runFrom {s : Progress n} {order : List (Fin n)} (hdistinct : order.Nodup)
    (hwaiting : ∀ i ∈ order, s.stage i = .waiting) :
    ((runFrom c s.results (order.map jobs)).run s.tree).events =
      heard c jobs s (order.flatMap (List.replicate 4)) := by
  induction order generalizing s with
  | nil => rfl
  | cons i order ih =>
    obtain ⟨hnew, hdistinct⟩ := List.nodup_cons.mp hdistinct
    obtain ⟨hi, horder⟩ := List.forall_mem_cons.mp hwaiting
    have hcaught : (((jobs i).run c).caught.run s.tree).outcome =
        .ok (((jobs i).run c).run s.tree).outcome := rfl
    rw [List.flatMap_cons, heard_append, heard_replicate, hi, Job.told_four,
      turns_of_one c jobs hi, List.map_cons, runFrom, run_bind_of_ok hcaught]
    refine congrArg _ (ih (s := ⟨_, _, _⟩) hdistinct fun j hj => ?_)
    have hji : j ≠ i := fun he => hnew (he ▸ hj)
    exact (Function.update_of_ne hji ..).trans (horder j hj)

/-- Cleaning files is letting their jobs take turns in order, and so it tells the same. -/
theorem cleanAll_eq_together (c : Cleaner) (overwrite : Bool) (paths : List Path) :
    cleanAll c overwrite paths = together c (jobsFor overwrite paths) (inOrder paths.length) := by
  have hrun : ∀ t, (cleanAll c overwrite paths).run t =
      (together c (jobsFor overwrite paths) (inOrder paths.length)).run t := by
    intro t
    obtain ⟨htree, houtcome⟩ := Prod.mk.inj (cleanAll_in_order c overwrite paths t)
    have hevents : ((cleanAll c overwrite paths).run t).events =
        heard c (jobsFor overwrite paths) ⟨t, fun _ => .waiting, []⟩ (inOrder paths.length) := by
      rw [cleanAll, jobs_in_order]
      exact events_runFrom (s := ⟨t, fun _ => .waiting, []⟩) (List.nodup_finRange _) fun _ _ => rfl
    generalize (cleanAll c overwrite paths).run t = done at htree houtcome hevents
    obtain ⟨tree, events, outcome⟩ := done
    cases htree
    cases houtcome
    cases hevents
    rfl
  exact congrArg Attempt.mk (funext hrun)

/-! ### Who calls the probe -/

/-- The jobs that read a notebook in Julia at some time. -/
def found (c : Cleaner) (jobs : Fin n → Job) (s : Progress n) (schedule : List (Fin n)) :
    Finset (Fin n) :=
  {i | ∃ before ∈ schedule.inits, (jobs i).HoldsJulia ((before.foldl (turn c jobs) s).stage i)}

theorem mem_found_iff {s : Progress n} {i : Fin n} {schedule : List (Fin n)} :
    i ∈ found c jobs s schedule ↔ ∃ before, before <+: schedule ∧
      (jobs i).HoldsJulia ((before.foldl (turn c jobs) s).stage i) := by
  rw [found, Finset.mem_filter, and_iff_right (Finset.mem_univ i)]
  simp only [List.mem_inits]

theorem mem_found_cons {s : Progress n} {i j : Fin n} {schedule : List (Fin n)} :
    i ∈ found c jobs s (j :: schedule) ↔
      (jobs i).HoldsJulia (s.stage i) ∨ i ∈ found c jobs (turn c jobs s j) schedule := by
  rw [mem_found_iff, mem_found_iff]
  constructor
  · rintro ⟨before, hbefore, hjulia⟩
    rcases List.prefix_cons_iff.mp hbefore with rfl | ⟨later, rfl, hlater⟩
    · exact .inl hjulia
    · exact .inr ⟨later, hlater, hjulia⟩
  · rintro (hjulia | ⟨before, hbefore, hjulia⟩)
    · exact ⟨[], List.nil_prefix, hjulia⟩
    · exact ⟨j :: before, (List.prefix_cons_inj j).mpr hbefore, hjulia⟩

/-- Once it has cleaned what it read, a job does not read again. -/
theorem not_mem_found_of_rank {s : Progress n} {i : Fin n} (h : 3 ≤ (s.stage i).rank)
    (schedule : List (Fin n)) : i ∉ found c jobs s schedule := by
  intro hi
  obtain ⟨before, _, hjulia⟩ := mem_found_iff.mp hi
  have hlater := @rank_foldl n c jobs before s i
  have hrank := Job.rank_of_holdsJulia hjulia
  omega

theorem count_heard (hc : c.CallsMarked mark) {s : Progress n} {schedule : List (Fin n)}
    (hcomplete : (schedule.foldl (turn c jobs) s).Complete) :
    (heard c jobs s schedule).countP mark = (found c jobs s schedule).card := by
  induction schedule generalizing s with
  | nil =>
    have hnone : found c jobs s [] = ∅ := by
      refine Finset.eq_empty_of_forall_notMem fun i hi => ?_
      obtain ⟨before, hbefore, hjulia⟩ := mem_found_iff.mp hi
      obtain rfl := List.prefix_nil.mp hbefore
      obtain ⟨result, hentered⟩ := hcomplete i
      rw [List.foldl_nil] at hjulia hentered
      rw [hentered] at hjulia
      exact hjulia
    rw [hnone]
    rfl
  | cons j schedule ih =>
    rw [heard, List.countP_append, Job.count_tells hc, ih hcomplete]
    -- Whoever else holds a notebook holds it after the turn, too.
    have hothers : ∀ i, i ≠ j → ((jobs i).HoldsJulia (s.stage i) →
        i ∈ found c jobs (turn c jobs s j) schedule) := by
      intro i hij hjulia
      refine mem_found_iff.mpr ⟨[], List.nil_prefix, ?_⟩
      rwa [List.foldl_nil, stage_turn_of_ne hij]
    by_cases hj : (jobs j).HoldsJulia (s.stage j)
    · have hrank := (jobs j).rank_advance c s.tree (s.stage j)
      rw [Job.rank_of_holdsJulia hj, ← stage_turn_self] at hrank
      have hnew : j ∉ found c jobs (turn c jobs s j) schedule := not_mem_found_of_rank hrank schedule
      have hinsert : found c jobs s (j :: schedule) =
          insert j (found c jobs (turn c jobs s j) schedule) := by
        ext i
        rw [mem_found_cons, Finset.mem_insert]
        by_cases hij : i = j
        · simp [hij, hj]
        · simp only [hij, false_or]
          exact or_iff_right_of_imp (hothers i hij)
      rw [if_pos hj, hinsert, Finset.card_insert_of_notMem hnew, Nat.add_comm]
    · have hsame : found c jobs s (j :: schedule) = found c jobs (turn c jobs s j) schedule := by
        ext i
        rw [mem_found_cons]
        refine or_iff_right_of_imp fun hjulia => hothers i ?_ hjulia
        rintro rfl
        exact hj hjulia
      rw [if_neg hj, hsame, Nat.zero_add]

end Batch

/-! ### Many operations -/

/-- An order in which every one of some jobs comes to its end. -/
structure Batch.Schedule (n : Nat) where
  turns : List (Fin n)
  enough : ∀ i, 4 ≤ turns.count i

/-- The jobs for some paths, one after the other. -/
def Batch.Schedule.inOrder (n : Nat) : Schedule n := ⟨Batch.inOrder n, count_inOrder⟩

/-- What a cleaner is there for: it cleans a file, a document, or the files at some paths. -/
inductive Operation where
  | file (job : Job)
  | document (notebook : Value)
  | files (overwrite : Bool) (paths : List Path) (schedule : Batch.Schedule paths.length)

abbrev Session := List Operation

namespace Attempt
variable {α : Type}

/-- An attempt, whatever comes of it. -/
def ended (x : Attempt α) : Attempt Unit := do
  let _ ← x.caught
  pure ()

theorem outcome_ended (x : Attempt α) (t : Tree) : (x.ended.run t).outcome = .ok () := rfl

theorem marks_ended (mark : Event → Bool) (x : Attempt α) (t : Tree) :
    x.ended.marks mark t = x.marks mark t := marks_bind_of_unmarked fun _ _ => rfl

end Attempt

namespace Operation

def run (c : Cleaner) : Operation → Attempt Unit
  | .file job => (job.run c).ended
  | .document notebook => (c.cleanDocument notebook).ended
  | .files overwrite paths schedule =>
    (Batch.together c (Batch.jobsFor overwrite paths) schedule.turns).ended

/-- How many notebooks in Julia an operation finds: a file that could be copied if it was to be
kept, and read, or the document itself, or as many files as there are such among some. -/
def found (c : Cleaner) : Operation → Tree → Nat
  | .file job, t => if ∃ text ∈ job.text? t, job.Asks text then 1 else 0
  | .document notebook, _ => if WrittenIn notebook juliaName then 1 else 0
  | .files overwrite paths schedule, t =>
    (Batch.found c (Batch.jobsFor overwrite paths) ⟨t, fun _ => .waiting, []⟩ schedule.turns).card

theorem run_files_in_order (c : Cleaner) (overwrite : Bool) (paths : List Path) :
    (files overwrite paths (.inOrder _)).run c = (Batch.cleanAll c overwrite paths).ended := by
  rw [Batch.cleanAll_eq_together]
  rfl

theorem outcome_run (c : Cleaner) (op : Operation) (t : Tree) :
    ((op.run c).run t).outcome = .ok () := by
  cases op <;> exact outcome_ended _ t

theorem marks_run {c : Cleaner} {mark : Event → Bool} (hc : c.CallsMarked mark) (op : Operation)
    (t : Tree) : (op.run c).marks mark t = op.found c t := by
  cases op with
  | file job => rw [run, marks_ended, Job.marks_run hc, found]
  | document notebook => rw [run, marks_ended, Cleaner.marks_cleanDocument hc, found]
  | files overwrite paths schedule =>
    rw [run, marks_ended, found]
    exact Batch.count_heard hc (Batch.complete_of_turns schedule.enough)

/-- Cleaning files one after the other finds what jobs find that take turns in order. -/
theorem marks_cleanAll {c : Cleaner} {mark : Event → Bool} (hc : c.CallsMarked mark)
    (overwrite : Bool) (paths : List Path) (t : Tree) :
    (Batch.cleanAll c overwrite paths).marks mark t =
      (files overwrite paths (.inOrder _)).found c t := by
  rw [← marks_run hc, run_files_in_order, marks_ended]

end Operation

namespace Session

/-- The operations of a session, each on the files that the ones before it left. -/
def run (c : Cleaner) : Session → Attempt Unit
  | [] => pure ()
  | op :: session => do
    op.run c
    run c session

/-- How many notebooks in Julia are found in a session. -/
def found (c : Cleaner) : Session → Tree → Nat
  | [], _ => 0
  | op :: session, t => op.found c t + found c session ((op.run c).run t).tree

theorem marks_run {c : Cleaner} {mark : Event → Bool} (hc : c.CallsMarked mark) (session : Session)
    (t : Tree) : (run c session).marks mark t = found c session t := by
  induction session generalizing t with
  | nil => rfl
  | cons op session ih =>
    rw [run, found, marks_bind_of_ok (op.outcome_run c t), op.marks_run hc, ih]

/-- **The probe is called once for each notebook in Julia that is found**, whatever its cells are and
whatever comes of it, and for nothing else; so it is where files are cleaned one after the other. -/
theorem called_once_for_each {c : Cleaner} {mark : Event → Bool} (hc : c.CallsMarked mark)
    (session : Session) (t : Tree) : (run c session).marks mark t = found c session t ∧
      ∀ overwrite paths, (Batch.cleanAll c overwrite paths).marks mark t =
        (Operation.files overwrite paths (.inOrder _)).found c t :=
  ⟨marks_run hc session t, fun overwrite paths => Operation.marks_cleanAll hc overwrite paths t⟩

/-- A notebook in Julia, one in no language, and a script. -/
def mixedFiles : Tree :=
  ⟨[([Text.encode "j.ipynb"],
      .file (Text.encode "\x7b\"metadata\":\x7b\"language_info\":\x7b\"name\":\"julia\"\x7d\x7d\x7d")),
    ([Text.encode "n.ipynb"], .file (Text.encode "[]")),
    ([Text.encode "s.py"], .file (Text.encode "x"))], []⟩

/-- Every file is cleaned, the notebook in Julia more than once; and so are two documents. -/
def mixedSession : Session :=
  [.file ⟨.ofString "j.ipynb", .notebook, false⟩, .file ⟨.ofString "s.py", .script, true⟩,
    .document (.object [("metadata", .object [("language_info",
      .object [("name", .string "julia")])])]),
    .document (.object []),
    .files true [.ofString "j.ipynb", .ofString "n.ipynb", .ofString "j.ipynb"]
      ⟨[0, 2, 1, 2, 0, 1, 2, 0, 1, 1, 2, 0], by decide⟩]

/-- A program that puts out what it is fed, or nothing. -/
def echo : Runner
  | _, .pipes input, t => (.finished 0 input [] none, t)
  | _, .nothing, t => (.finished 0 [] [] none, t)

/-- The probe is called for the copy, for the document in Julia, and twice for the same file; and of
files that are cleaned one after the other, for the copy of one and for the copy of that. -/
theorem called_once_for_each_mixed :
    let c := Config.standard.cleaner echo
    let paths := [Path.ofString "s.py", .ofString "j.ipynb", .ofString "j.cleaned.ipynb"]
    c.CallsMarked Event.asks ∧ c.CallsMarked Event.answers ∧
      (run c mixedSession).marks Event.asks mixedFiles = 4 ∧
      (run c mixedSession).marks Event.answers mixedFiles = 4 ∧
      (Batch.cleanAll c false paths).marks Event.asks mixedFiles = 2 := by
  intro c paths
  obtain ⟨hasks, hanswers⟩ := Config.marks_cleaner echo Config.standard
  have hfound : found c mixedSession mixedFiles = 4 := by decide +kernel
  have hinOrder : (Operation.files false paths (.inOrder _)).found c mixedFiles = 2 := by
    decide +kernel
  obtain ⟨hrun, hcleanAll⟩ := called_once_for_each hasks mixedSession mixedFiles
  exact ⟨hasks, hanswers, hrun.trans hfound,
    (called_once_for_each hanswers mixedSession mixedFiles).1.trans hfound,
    (hcleanAll false paths).trans hinOrder⟩

end Session
end NotebookTidy
