import NotebookTidy.Proofs.Cleaner.Parts
import NotebookTidy.Proofs.Outcome

/-! What a job does to the files, and what comes of it, when cleaning code leaves files alone.

An attempt that keeps the files leaves them as they were (`Attempt.KeepsFiles`), and so do
attempts of which each does. If the formatters of a cleaner and its probe keep the files, so
does all cleaning, and a job comes to its `effect`: the file is copied if it is to be kept, and
read; its text is cleaned; and what comes of that is written. Each of these may fail, and then
nothing more is done (`leaves_run`). -/
namespace NotebookTidy
open Files Json

namespace Attempt
variable {α β : Type}

/-- The files are as they were. -/
def KeepsFiles (x : Attempt α) : Prop := ∀ t, (x.run t).tree = t

theorem keepsFiles_of (o : Except Failure α) : (of o).KeepsFiles := fun _ => rfl

theorem keepsFiles_pure (a : α) : (pure a : Attempt α).KeepsFiles := fun _ => rfl

theorem keepsFiles_tell (e : Event) : (tell e).KeepsFiles := fun _ => rfl

theorem KeepsFiles.caught {x : Attempt α} (h : x.KeepsFiles) : x.caught.KeepsFiles := h

theorem KeepsFiles.bind {x : Attempt α} (hx : x.KeepsFiles) {f : α → Attempt β}
    (hf : ∀ a, (f a).KeepsFiles) : (x >>= f).KeepsFiles := by
  intro t
  cases h : (x.run t).outcome with
  | error e =>
    rw [run_bind_of_error h]
    exact hx t
  | ok a =>
    rw [run_bind_of_ok h, hx t]
    exact hf a t

/-- The files after an attempt, and what comes of it. -/
def leaves (x : Attempt α) (t : Tree) : Tree × Except Failure α := ((x.run t).tree, (x.run t).outcome)

theorem KeepsFiles.leaves {x : Attempt α} (h : x.KeepsFiles) (t : Tree) :
    x.leaves t = (t, (x.run t).outcome) := by
  rw [Attempt.leaves, h t]

theorem leaves_bind_of_ok {x : Attempt α} {t t' : Tree} {a : α} (h : x.leaves t = (t', .ok a))
    (f : α → Attempt β) : (x >>= f).leaves t = (f a).leaves t' := by
  obtain ⟨htree, hok⟩ := Prod.mk.inj h
  rw [Attempt.leaves, run_bind_of_ok hok, htree]
  rfl

theorem leaves_bind_of_error {x : Attempt α} {t t' : Tree} {e : Failure}
    (h : x.leaves t = (t', .error e)) (f : α → Attempt β) :
    (x >>= f).leaves t = (t', .error e) := by
  obtain ⟨htree, herror⟩ := Prod.mk.inj h
  rw [Attempt.leaves, run_bind_of_error herror, htree]

theorem leaves_change (f : Tree → Except IoError Tree) (t : Tree) : (change f).leaves t =
    match f t with
    | .ok changed => (changed, .ok ())
    | .error e => (t, .error (.io e)) := by
  cases h : f t <;> simp only [Attempt.leaves, change, h]

end Attempt

/-! ### Cleaning that keeps files -/

theorem Attempt.composes_keepsFiles : Composes @KeepsFiles :=
  ⟨keepsFiles_of, fun _ => keepsFiles_tell _, .caught, fun hx hf => hx.bind hf⟩

namespace Cleaner

/-- Neither the formatters nor the probe change any file. -/
structure KeepsFiles (c : Cleaner) : Prop where
  python : ∀ code, (c.python code).KeepsFiles
  julia : ∀ code, (c.julia code).KeepsFiles
  probe : c.probe.KeepsFiles

theorem keepsFiles_ofFunctions (python julia : String → Except Failure String)
    (available : Bool) : (ofFunctions python julia available).KeepsFiles :=
  ⟨fun _ _ => rfl, fun _ _ => rfl, fun _ => rfl⟩

variable {c : Cleaner}

theorem KeepsFiles.cleanDocument (hc : c.KeepsFiles) (document : Value) :
    (c.cleanDocument document).KeepsFiles := by
  refine .bind (Attempt.keepsFiles_of _) fun language => ?_
  refine .bind ?_ fun choice => ?_
  · rw [choose]
    split
    · refine .bind (Attempt.keepsFiles_tell _) fun _ => ?_
      exact .bind hc.probe fun _ => Attempt.keepsFiles_pure _
    · exact Attempt.keepsFiles_pure _
  · cases choice with
    | python =>
      exact .bind (Attempt.composes_keepsFiles.cleanCells hc.python _ _) fun _ =>
        Attempt.keepsFiles_pure _
    | julia =>
      exact .bind (Attempt.composes_keepsFiles.cleanCells hc.julia _ _) fun _ =>
        Attempt.keepsFiles_pure _
    | unavailable => exact Attempt.keepsFiles_pure _

theorem KeepsFiles.cleanText (hc : c.KeepsFiles) (kind : Kind) (text : String) :
    (Job.cleanText c kind text).KeepsFiles := by
  cases kind with
  | notebook =>
    exact .bind (Attempt.keepsFiles_of _) fun document =>
      .bind (hc.cleanDocument document) fun _ =>
        .bind (Attempt.keepsFiles_of _) fun _ => Attempt.keepsFiles_pure _
  | script =>
    exact .bind (Attempt.composes_keepsFiles.formatScript hc.python text) fun _ =>
      Attempt.keepsFiles_pure _

end Cleaner

/-! ### Programs that keep files -/

/-- Programs change no file. -/
def Runner.KeepsFiles (run : Runner) : Prop := ∀ command streams t, (run command streams t).2 = t

theorem Probe.keepsFiles_ofCommand {run : Runner} (hrun : run.KeepsFiles) (command : Command) :
    (ofCommand run command).KeepsFiles := by
  have hstart : (Attempt.start run command .nothing).KeepsFiles := hrun command .nothing
  refine .bind hstart fun outcome => ?_
  cases outcome with
  | notStarted e => exact .bind (Attempt.keepsFiles_tell _) fun _ => Attempt.keepsFiles_pure _
  | finished status stdout stderr inputError =>
    exact .bind (Attempt.keepsFiles_tell _) fun _ => Attempt.keepsFiles_pure _

/-- Where programs change no file, the cleaner of a config does not. -/
theorem Config.keepsFiles_cleaner {run : Runner} (hrun : run.KeepsFiles) (config : Config) :
    (config.cleaner run).KeepsFiles := by
  have hstart : ∀ command streams, (Attempt.start run command streams).KeepsFiles := hrun
  obtain ⟨hpython, hjulia⟩ := Attempt.composes_keepsFiles.formatters hstart config
  exact ⟨hpython, hjulia, Probe.keepsFiles_ofCommand hrun _⟩

namespace Job

/-! ### The effect of a job -/

/-- The files once the file to be cleaned is in its place. -/
def started (job : Job) (t : Tree) : Except IoError Tree :=
  if job.overwrite then .ok t else t.copy job.path job.target

theorem target_of_overwrite {job : Job} (h : job.overwrite = true) : job.target = job.path :=
  if_pos h

theorem target_of_beside {job : Job} (h : job.overwrite = false) :
    job.target = job.path.cleaned := by
  rw [target, h]
  rfl

theorem started_of_overwrite {job : Job} (h : job.overwrite = true) (t : Tree) :
    job.started t = .ok t := if_pos h

theorem started_of_beside {job : Job} (h : job.overwrite = false) (t : Tree) :
    job.started t = t.copy job.path job.target := by
  rw [started, h]
  rfl

/-- The files after a job on them, and what comes of it. -/
def effect (c : Cleaner) (job : Job) (t : Tree) : Tree × Result :=
  match job.started t with
  | .error e => (t, .error (.io e))
  | .ok t =>
    match t.readText job.target with
    | .error e => (t, .error (.io e))
    | .ok text =>
      match ((cleanText c job.kind text).run t).outcome with
      | .error e => (t, .error e)
      | .ok (status, cleaned) =>
        match t.write job.target (Text.encode cleaned) with
        | .error e => (t, .error (.io e))
        | .ok written => (written, .ok status)

/-- A job that succeeds got through each of its steps. -/
theorem effect_eq_ok_iff {c : Cleaner} {job : Job} {t t' : Tree} {status : Status} :
    job.effect c t = (t', .ok status) ↔ ∃ started text cleaned, job.started t = .ok started ∧
      started.readText job.target = .ok text ∧
      ((cleanText c job.kind text).run started).outcome = .ok (status, cleaned) ∧
      started.write job.target (Text.encode cleaned) = .ok t' := by
  constructor
  · intro h
    rw [effect] at h
    split at h
    · cases h
    next started hstarted =>
    split at h
    · cases h
    next text hread =>
    split at h
    · cases h
    next status' cleaned hcleaned =>
    split at h
    · cases h
    next written hwrite =>
    cases h
    exact ⟨started, text, cleaned, hstarted, hread, hcleaned, hwrite⟩
  · rintro ⟨started, text, cleaned, hstarted, hread, hcleaned, hwrite⟩
    simp only [effect, hstarted, hread, hcleaned, hwrite]

theorem leaves_copy (job : Job) (t : Tree) : job.copy.leaves t =
    match job.started t with
    | .error e => (t, .error (.io e))
    | .ok started => (started, .ok ()) := by
  rw [copy, started]
  cases job.overwrite with
  | true => rfl
  | false =>
    simp only [Bool.false_eq_true, if_false]
    have hchange := Attempt.leaves_change (fun t => t.copy job.path job.target) t
    cases hcopy : t.copy job.path job.target with
    | error e =>
      rw [hcopy] at hchange
      exact Attempt.leaves_bind_of_error hchange _
    | ok copied =>
      rw [hcopy] at hchange
      exact Attempt.leaves_bind_of_ok hchange _

/-- What was made of the text is written among the files that are there then. -/
theorem leaves_finish_of {c : Cleaner} {job : Job} {text : String} {t t' : Tree}
    {cleaned : Except Failure (Status × String)} :
    (cleanText c job.kind text).leaves t = (t', cleaned) → (job.finish c text).leaves t =
      match cleaned with
      | .error e => (t', .error e)
      | .ok (status, cleaned) =>
        match t'.write job.target (Text.encode cleaned) with
        | .error e => (t', .error (.io e))
        | .ok written => (written, .ok status) := by
  intro h
  cases cleaned with
  | error e => exact Attempt.leaves_bind_of_error h _
  | ok done =>
    obtain ⟨status, cleaned⟩ := done
    rw [finish, Attempt.leaves_bind_of_ok h]
    dsimp only
    have hchange := Attempt.leaves_change (fun t => t.write job.target (Text.encode cleaned)) t'
    cases hwrite : t'.write job.target (Text.encode cleaned) with
    | error e =>
      rw [hwrite] at hchange
      exact Attempt.leaves_bind_of_error hchange _
    | ok written =>
      rw [hwrite] at hchange
      exact Attempt.leaves_bind_of_ok hchange _

theorem leaves_finish {c : Cleaner} (hc : c.KeepsFiles) (job : Job) (text : String) (t : Tree) :
    (job.finish c text).leaves t =
      match ((cleanText c job.kind text).run t).outcome with
      | .error e => (t, .error e)
      | .ok (status, cleaned) =>
        match t.write job.target (Text.encode cleaned) with
        | .error e => (t, .error (.io e))
        | .ok written => (written, .ok status) :=
  leaves_finish_of ((hc.cleanText job.kind text).leaves t)

/-- A job that found its text goes on with it. -/
theorem leaves_run_of_loaded {c : Cleaner} {job : Job} {t t' : Tree} {text : String}
    (hstarted : job.started t = .ok t') (hread : t'.readText job.target = .ok text) :
    (job.run c).leaves t = (job.finish c text).leaves t' := by
  have hcopy := leaves_copy job t
  rw [hstarted] at hcopy
  have hload : job.load.leaves t' = (t', .ok text) := by
    rw [Attempt.leaves, load, Attempt.run_look, hread]
    rfl
  rw [run, Attempt.leaves_bind_of_ok hcopy, Attempt.leaves_bind_of_ok hload]

theorem leaves_run {c : Cleaner} (hc : c.KeepsFiles) (job : Job) (t : Tree) :
    (job.run c).leaves t = job.effect c t := by
  rw [effect]
  cases hstarted : job.started t with
  | error e =>
    have hcopy := leaves_copy job t
    rw [hstarted] at hcopy
    exact Attempt.leaves_bind_of_error hcopy _
  | ok started =>
    dsimp only
    cases hread : started.readText job.target with
    | error e =>
      have hcopy := leaves_copy job t
      rw [hstarted] at hcopy
      have hload : job.load.leaves started = (started, .error (.io e)) := by
        rw [Attempt.leaves, load, Attempt.run_look, hread]
        rfl
      rw [run, Attempt.leaves_bind_of_ok hcopy, Attempt.leaves_bind_of_error hload]
    | ok text => rw [leaves_run_of_loaded hstarted hread, leaves_finish hc]

end Job
end NotebookTidy
