import Mathlib.Data.List.FinRange
import NotebookTidy.Batch
import NotebookTidy.Proofs.Job.Turns

/-! Jobs that take turns.

Several jobs may take their turns in any order, on the same files (`interleave`); the result of
each is entered in the turn after it is finished (`stage_turn_entered_iff`). An order in which
every job has four turns brings every job to its end (`complete_of_turns`), and cleaning the files
one after the other is one such order (`cleanAll_in_order`). -/
namespace NotebookTidy
open Files

namespace Batch
variable {n : Nat}

/-! ### Several jobs -/

/-- The files, how far each job has got, and the results that were entered. -/
structure Progress (n : Nat) where
  tree : Tree
  stage : Fin n → Stage
  results : Results

/-- The result of a job that is finished is entered. -/
def enter (results : Results) (path : Path) : Stage → Results
  | .finished result => record results path result
  | _ => results

/-- One of the jobs takes a turn. -/
def turn (c : Cleaner) (jobs : Fin n → Job) (s : Progress n) (i : Fin n) : Progress n :=
  let next := (jobs i).advance c (s.tree, s.stage i)
  ⟨next.1, Function.update s.stage i next.2, enter s.results (jobs i).path (s.stage i)⟩

/-- Jobs take turns as they are scheduled. -/
def interleave (c : Cleaner) (jobs : Fin n → Job) (t : Tree) (schedule : List (Fin n)) : Progress n :=
  schedule.foldl (turn c jobs) ⟨t, fun _ => .waiting, []⟩

/-- The result of every job is entered. -/
def Progress.Complete (s : Progress n) : Prop := ∀ i, ∃ result, s.stage i = .entered result

variable {c : Cleaner} {jobs : Fin n → Job} {t : Tree} {s : Progress n}

@[simp] theorem results_turn (i : Fin n) :
    (turn c jobs s i).results = enter s.results (jobs i).path (s.stage i) := rfl

@[simp] theorem stage_turn_self (i : Fin n) :
    (turn c jobs s i).stage i = ((jobs i).advance c (s.tree, s.stage i)).2 :=
  Function.update_self ..

@[simp] theorem stage_turn_of_ne {i j : Fin n} (h : j ≠ i) :
    (turn c jobs s i).stage j = s.stage j := Function.update_of_ne h ..

/-- What every turn preserves holds after all of them. -/
theorem interleave_induction {P : Progress n → Prop} (hstart : P ⟨t, fun _ => .waiting, []⟩)
    (hturn : ∀ s i, P s → P (turn c jobs s i)) (schedule : List (Fin n)) :
    P (interleave c jobs t schedule) := by
  rw [interleave]
  generalize (⟨t, fun _ => .waiting, []⟩ : Progress n) = s at hstart
  induction schedule generalizing s with
  | nil => exact hstart
  | cons i schedule ih => exact ih _ (hturn s i hstart)

theorem rank_foldl (schedule : List (Fin n)) (s : Progress n) (i : Fin n) :
    min 4 ((s.stage i).rank + schedule.count i) ≤
      ((schedule.foldl (turn c jobs) s).stage i).rank := by
  induction schedule generalizing s with
  | nil => exact Nat.min_le_right _ _
  | cons j schedule ih =>
    refine Nat.le_trans ?_ (ih (turn c jobs s j))
    by_cases hij : j = i
    · subst hij
      have hstep := (jobs j).rank_advance c s.tree (s.stage j)
      rw [stage_turn_self, List.count_cons_self]
      omega
    · rw [stage_turn_of_ne (Ne.symm hij), List.count_cons_of_ne hij]

/-- Four turns for each job are enough, whatever the others do meanwhile. -/
theorem complete_of_turns {schedule : List (Fin n)} (h : ∀ i, 4 ≤ schedule.count i) :
    (interleave c jobs t schedule).Complete := by
  intro i
  refine Stage.entered_of_rank (Nat.le_trans ?_ (rank_foldl schedule _ i))
  have hcount := h i
  rw [Nat.le_min]
  exact ⟨Nat.le_refl _, by simpa [Stage.rank] using hcount⟩

/-! ### Results -/

/-- The result for a path is entered once, however often it is. -/
theorem record_cases {results : Results} {path : Path} {result : Result}
    (h : ∀ x ∈ results, x.1.components = path.components → x = (path, result)) :
    ((path, result) ∈ results ∧ record results path result = results) ∨
      ((∀ x ∈ results, x.1.components ≠ path.components) ∧
        record results path result = results ++ [(path, result)]) := by
  induction results with
  | nil => exact .inr ⟨nofun, rfl⟩
  | cons x results ih =>
    obtain ⟨p, r⟩ := x
    obtain ⟨hx, hresults⟩ := List.forall_mem_cons.mp h
    rw [record]
    by_cases hsame : p.components = path.components
    · obtain ⟨rfl, rfl⟩ := Prod.mk.inj (hx hsame)
      exact .inl ⟨List.mem_cons_self, if_pos rfl⟩
    · rw [if_neg hsame]
      rcases ih hresults with ⟨hmem, hrecord⟩ | ⟨hnew, hrecord⟩
      · exact .inl ⟨List.mem_cons_of_mem _ hmem, by rw [hrecord]⟩
      · exact .inr ⟨List.forall_mem_cons.mpr ⟨hsame, hnew⟩, by rw [hrecord]; rfl⟩

section
variable {results : Results} {path : Path} {result : Result}
variable (h : ∀ x ∈ results, x.1.components = path.components → x = (path, result))
include h

theorem mem_record_iff {x : Path × Result} :
    x ∈ record results path result ↔ x ∈ results ∨ x = (path, result) := by
  rcases record_cases h with ⟨hthere, hrecord⟩ | ⟨_, hrecord⟩
  · rw [hrecord]
    exact ⟨.inl, fun hx => hx.elim id fun he => he ▸ hthere⟩
  · rw [hrecord, List.mem_append, List.mem_singleton]

theorem nodup_record (hdistinct : (results.map (·.1.components)).Nodup) :
    ((record results path result).map (·.1.components)).Nodup := by
  rcases record_cases h with ⟨_, hrecord⟩ | ⟨hnew, hrecord⟩
  · rwa [hrecord]
  · rw [hrecord, List.map_append, List.nodup_append]
    refine ⟨hdistinct, List.nodup_singleton _, fun cs hcs cs' hcs' he => ?_⟩
    obtain ⟨x, hx, rfl⟩ := List.mem_map.mp hcs
    rw [List.map_singleton, List.mem_singleton] at hcs'
    exact hnew x hx (he.trans hcs')

end

/-- A result is entered in the turn after the job is finished. -/
theorem stage_turn_entered_iff {i j : Fin n} {result : Result} : (turn c jobs s i).stage j = .entered result ↔
      s.stage j = .entered result ∨ (j = i ∧ s.stage i = .finished result) := by
  have hnot : ∀ {α : Type} {next : α → Stage} {left : Tree × Except Failure α},
      (∀ x, next x ≠ .entered result) → (Job.followedBy next left).2 ≠ .entered result :=
    fun hnext => Job.followedBy_ind (P := fun x => x.2 ≠ .entered result)
      (fun x _ => hnext x) fun _ => nofun
  by_cases hji : j = i
  · subst hji
    rw [stage_turn_self]
    cases hstage : s.stage j with
    | waiting => exact iff_of_false (hnot nofun) (by simp)
    | placed => exact iff_of_false (hnot nofun) (by simp)
    | loaded text => exact iff_of_false (hnot nofun) (by simp)
    | finished r => simp [Job.advance]
    | entered r => simp [Job.advance]
  · rw [stage_turn_of_ne hji]
    simp [hji]

/-! ### One job after the other -/

/-- The turns of one job, with none of another in between. -/
theorem turns_of_one (c : Cleaner) (jobs : Fin n → Job) {i : Fin n} (hwaiting : s.stage i = .waiting) :
    (List.replicate 4 i).foldl (turn c jobs) s =
      ⟨(((jobs i).run c).run s.tree).tree,
        Function.update s.stage i (.entered (((jobs i).run c).run s.tree).outcome),
        record s.results (jobs i).path (((jobs i).run c).run s.tree).outcome⟩ := by
  have hturn : ∀ {t t' : Tree} {stage next : Stage} (f : Fin n → Stage) (results : Results),
      (jobs i).advance c (t, stage) = (t', next) →
      turn c jobs ⟨t, Function.update f i stage, results⟩ i =
        ⟨t', Function.update f i next, enter results (jobs i).path stage⟩ := by
    intro t t' stage next f results h
    simp only [turn, Function.update_self, Function.update_idem, h]
  have hstart : s = ⟨s.tree, Function.update s.stage i .waiting, s.results⟩ := by
    rw [← hwaiting, Function.update_eq_self]
  have hfinished : ∀ t result, (jobs i).advance c (t, .finished result) = (t, .entered result) :=
    fun _ _ => rfl
  have hentered : ∀ t result, (jobs i).advance c (t, .entered result) = (t, .entered result) :=
    fun _ _ => rfl
  have hreaches := (jobs i).reaches_run c s.tree
  generalize ((jobs i).run c).run s.tree = done at hreaches ⊢
  conv_lhs => rw [hstart]
  change turn c jobs (turn c jobs (turn c jobs (turn c jobs _ i) i) i) i = _
  cases hreaches with
  | copying h =>
    rw [hturn _ _ h, hturn _ _ (hfinished _ _), hturn _ _ (hentered _ _),
      hturn _ _ (hentered _ _)]
    rfl
  | reading h h' =>
    rw [hturn _ _ h, hturn _ _ h', hturn _ _ (hfinished _ _), hturn _ _ (hentered _ _)]
    rfl
  | writing h h' h'' =>
    rw [hturn _ _ h, hturn _ _ h', hturn _ _ h'', hturn _ _ (hfinished _ _)]
    rfl

/-- Running jobs one after the other is one of the orders in which they may take turns. -/
theorem runFrom_in_order {order : List (Fin n)} (hdistinct : order.Nodup)
    (hwaiting : ∀ i ∈ order, s.stage i = .waiting) :
    (runFrom c s.results (order.map jobs)).leaves s.tree =
      (((order.flatMap (List.replicate 4)).foldl (turn c jobs) s).tree,
        .ok ((order.flatMap (List.replicate 4)).foldl (turn c jobs) s).results) := by
  induction order generalizing s with
  | nil => rfl
  | cons i order ih =>
    obtain ⟨hnew, hdistinct⟩ := List.nodup_cons.mp hdistinct
    obtain ⟨hi, horder⟩ := List.forall_mem_cons.mp hwaiting
    rw [List.flatMap_cons, List.foldl_append, turns_of_one c jobs hi, List.map_cons, runFrom]
    have hcaught : ((jobs i).run c).caught.leaves s.tree = ((((jobs i).run c).run s.tree).tree,
        .ok (((jobs i).run c).run s.tree).outcome) := rfl
    rw [Attempt.leaves_bind_of_ok hcaught]
    refine ih (s := ⟨_, _, _⟩) hdistinct fun j hj => ?_
    have hji : j ≠ i := fun he => hnew (he ▸ hj)
    exact (Function.update_of_ne hji ..).trans (horder j hj)

/-- The jobs for some paths. -/
def jobsFor (overwrite : Bool) (paths : List Path) (i : Fin paths.length) : Job :=
  jobFor overwrite paths[i]

/-- Each of the jobs has its four turns before the next one begins. -/
def inOrder (n : Nat) : List (Fin n) := (List.finRange n).flatMap (List.replicate 4)

theorem count_inOrder (i : Fin n) : 4 ≤ (inOrder n).count i := by
  have hturns : (List.replicate 4 i).Sublist (inOrder n) := by
    rw [inOrder, List.flatMap_def]
    exact List.sublist_flatten_of_mem (List.mem_map_of_mem (List.mem_finRange i))
  have hcount := hturns.count_le i
  rwa [List.count_replicate_self] at hcount

theorem jobs_in_order (overwrite : Bool) (paths : List Path) : paths.map (jobFor overwrite) =
    (List.finRange paths.length).map (jobsFor overwrite paths) := by
  conv_lhs => rw [← List.map_get_finRange paths, List.map_map]
  rfl

/-- Cleaning files is letting their jobs take turns in order. -/
theorem cleanAll_in_order (c : Cleaner) (overwrite : Bool) (paths : List Path) (t : Tree) :
    (cleanAll c overwrite paths).leaves t =
      ((interleave c (jobsFor overwrite paths) t (inOrder paths.length)).tree,
        .ok (interleave c (jobsFor overwrite paths) t (inOrder paths.length)).results) := by
  rw [cleanAll, jobs_in_order]
  exact runFrom_in_order (s := ⟨t, fun _ => .waiting, []⟩) (List.nodup_finRange _) fun _ _ => rfl

end Batch
end NotebookTidy
