import NotebookTidy.Proofs.Cleaner.Result
import NotebookTidy.Proofs.Job.Effect

/-! How often it is asked whether the toolchain is there.

To count the calls of a probe, events are picked of which a call leaves one, and nothing else leaves
any (`Cleaner.CallsMarked`): the one told by whoever asks, or those told by a probe that is a program.
Attempts that follow one another leave as many marks as all of them together
(`Attempt.marks_bind_of_ok`). So there is one call if a document says that it is in Julia, and none
otherwise, whatever its cells are and whatever comes of them (`Cleaner.marks_cleanDocument`); and
what a job finds at its target says whether there is one for the job (`Job.marks_run`). -/
namespace NotebookTidy
open Files Json Notebook

namespace Attempt
variable {α β : Type} {mark : Event → Bool} {x : Attempt α} {t : Tree}

/-- How many marks an attempt leaves among the events. -/
def marks (mark : Event → Bool) (x : Attempt α) (t : Tree) : Nat := (x.run t).events.countP mark

def Unmarked (mark : Event → Bool) (x : Attempt α) : Prop := ∀ t, x.marks mark t = 0

theorem marks_bind_of_ok {a : α} (h : (x.run t).outcome = .ok a) (f : α → Attempt β) :
    (x >>= f).marks mark t = x.marks mark t + (f a).marks mark (x.run t).tree := by
  rw [marks, run_bind_of_ok h, List.countP_append]
  rfl

theorem marks_bind_of_error {e : Failure} (h : (x.run t).outcome = .error e)
    (f : α → Attempt β) : (x >>= f).marks mark t = x.marks mark t := by
  rw [marks, run_bind_of_error h]
  rfl

/-- What follows does not count if it leaves no marks. -/
theorem marks_bind_of_unmarked {f : α → Attempt β} (hf : ∀ a, (f a).Unmarked mark) :
    (x >>= f).marks mark t = x.marks mark t := by
  cases h : (x.run t).outcome with
  | error e => exact marks_bind_of_error h f
  | ok a => rw [marks_bind_of_ok h, hf a, Nat.add_zero]

theorem composes_unmarked (hmark : ∀ e, ¬ e.OfProbe → mark e = false) :
    Composes (Unmarked mark) where
  of _ _ := rfl
  tell h _ := by simp [marks, hmark _ h]
  caught h := h
  bind hx hf t := by rw [marks_bind_of_unmarked hf, hx t]

theorem unmarked_look (f : Tree → Except IoError α) : (look f).Unmarked mark := fun _ => rfl

theorem unmarked_change (f : Tree → Except IoError Tree) : (change f).Unmarked mark := by
  intro t
  cases h : f t <;> simp only [marks, change, h, List.countP_nil]

theorem unmarked_start (run : Runner) (command : Command) (streams : Streams) :
    (start run command streams).Unmarked mark := fun _ => rfl

end Attempt

/-! ### Documents -/

instance (document : Value) (language : String) : Decidable (WrittenIn document language) :=
  decidable_of_iff _ language?_eq_some_iff

namespace Notebook

/-- A text that is a notebook in Julia. -/
def InJulia (text : String) : Prop :=
  ∃ document, parse text = .ok document ∧ WrittenIn document juliaName

theorem inJulia_iff {text : String} {document : Value} (h : parse text = .ok document) :
    InJulia text ↔ WrittenIn document juliaName :=
  ⟨fun ⟨_, hparse, hl⟩ => Except.ok.inj (h.symm.trans hparse) ▸ hl, fun hl => ⟨document, h, hl⟩⟩

instance (text : String) : Decidable (InJulia text) :=
  match h : parse text with
  | .ok _ => decidable_of_iff _ (inJulia_iff h).symm
  | .error _ => isFalse fun ⟨_, hparse, _⟩ => by cases h.symm.trans hparse

end Notebook

namespace Cleaner
open Attempt

/-- A call of the probe leaves one mark, and nothing else leaves any. -/
structure CallsMarked (c : Cleaner) (mark : Event → Bool) : Prop where
  other : ∀ e, ¬ e.OfProbe → mark e = false
  python : ∀ code, (c.python code).Unmarked mark
  julia : ∀ code, (c.julia code).Unmarked mark
  call : ∀ t, (do .tell .toolchainAsked; c.probe : Attempt Bool).marks mark t = 1

variable {c : Cleaner} {mark : Event → Bool} (hc : c.CallsMarked mark)
include hc

theorem CallsMarked.composes : Composes (Unmarked mark) := composes_unmarked hc.other

theorem marks_choose (language : String) (t : Tree) :
    (c.choose language).marks mark t = if language = juliaName then 1 else 0 := by
  rw [choose]
  split
  · rw [← bind_assoc, marks_bind_of_unmarked fun _ => hc.composes.pure _, hc.call]
  · rfl

/-- **For a document in Julia the probe is called once, and for no other document.** -/
theorem marks_cleanDocument (document : Value) (t : Tree) :
    (c.cleanDocument document).marks mark t = if WrittenIn document juliaName then 1 else 0 := by
  rw [cleanDocument]
  cases hl : languageName document with
  | error e =>
    have hnot : ¬ WrittenIn document juliaName := fun h => by
      cases hl.symm.trans (languageName_eq_ok_iff.mpr h)
    rw [marks_bind_of_error (outcome_of _ t), if_neg hnot]
    rfl
  | ok language =>
    have hiff : WrittenIn document juliaName ↔ language = juliaName := by
      rw [← languageName_eq_ok_iff, hl, Except.ok.injEq]
    rw [marks_bind_of_ok (outcome_of _ t), run_of, marks_bind_of_unmarked, marks_choose hc]
    · simp only [hiff]
      exact Nat.zero_add _
    · intro choice
      cases choice with
      | python => exact hc.composes.map (hc.composes.cleanCells hc.python _ _) _
      | julia => exact hc.composes.map (hc.composes.cleanCells hc.julia _ _) _
      | unavailable => exact hc.composes.pure _

end Cleaner

/-! ### Marks -/

namespace Event

/-- It is told that the toolchain is asked about. -/
def asks (e : Event) : Bool := e == .toolchainAsked

/-- It is told what came of a program that is a probe. -/
def answers : Event → Bool
  | .probeFinished _ _ => true
  | .probeNotStarted _ _ => true
  | _ => false

theorem asks_eq_false {e : Event} (h : ¬ e.OfProbe) : e.asks = false := by
  cases e <;> first | rfl | exact absurd trivial h

theorem answers_eq_false {e : Event} (h : ¬ e.OfProbe) : e.answers = false := by
  cases e <;> first | rfl | exact absurd trivial h

end Event

/-- A program that is a probe is asked once, and answers once. -/
theorem Probe.events_ofCommand (run : Runner) (command : Command) (t : Tree) :
    ∃ answer : Event, ((ofCommand run command).run t).events = [answer] ∧
      answer.answers = true ∧ answer.asks = false := by
  have hstart : ((Attempt.start run command .nothing).run t).outcome =
      .ok (run command .nothing t).1 := rfl
  rw [ofCommand, Attempt.run_bind_of_ok hstart]
  cases (run command .nothing t).1 with
  | notStarted e => exact ⟨_, rfl, rfl, rfl⟩
  | finished status stdout stderr inputError => exact ⟨_, rfl, rfl, rfl⟩

theorem Config.callsMarked {run : Runner} {config : Config} {mark : Event → Bool}
    (hother : ∀ e, ¬ e.OfProbe → mark e = false)
    (hcall : ∀ answer : Event, answer.answers = true → answer.asks = false →
      [.toolchainAsked, answer].countP mark = 1) : (config.cleaner run).CallsMarked mark := by
  have hcomposes := Attempt.composes_unmarked hother
  obtain ⟨hpython, hjulia⟩ := hcomposes.formatters (Attempt.unmarked_start run) config
  refine ⟨hother, hpython, hjulia, fun t => ?_⟩
  obtain ⟨answer, hevents, hanswers, hasks⟩ := Probe.events_ofCommand run config.juliaProbe t
  have hprobe : ((config.cleaner run).probe.run t).events = [answer] := hevents
  rw [Attempt.marks, Attempt.run_bind_of_ok (Attempt.outcome_tell _ t), Attempt.run_tell]
  simp only [hprobe]
  exact hcall answer hanswers hasks

/-- With programs for parts, the questions tell how often the probe was called, and so do the
answers. -/
theorem Config.marks_cleaner (run : Runner) (config : Config) :
    (config.cleaner run).CallsMarked Event.asks ∧ (config.cleaner run).CallsMarked Event.answers := by
  refine ⟨callsMarked (fun _ => Event.asks_eq_false) fun answer _ hasks => ?_,
    callsMarked (fun _ => Event.answers_eq_false) fun answer hanswers _ => ?_⟩
  · rw [List.countP_cons, List.countP_singleton, hasks]
    rfl
  · rw [List.countP_cons, List.countP_singleton, hanswers]
    rfl

/-! ### Jobs -/

namespace Job
open Attempt Cleaner

/-- With this text the job asks about the toolchain. -/
def Asks (job : Job) (text : String) : Prop := job.kind = .notebook ∧ InJulia text

instance (job : Job) (text : String) : Decidable (job.Asks text) :=
  inferInstanceAs (Decidable (_ ∧ _))

/-- The text that a job finds at its target, once its file is copied if it is to be kept. -/
def text? (job : Job) (t : Tree) : Option String :=
  match job.started t with
  | .error _ => none
  | .ok started => (started.readText job.target).toOption

theorem not_ofProbe_report (job : Job) (status : Status) : ¬ (job.report status).OfProbe := by
  obtain ⟨path, kind, overwrite⟩ := job
  cases status with
  | cleaned => cases kind <;> exact id
  | uncleanable language => exact id

variable {c : Cleaner} {mark : Event → Bool} (hc : c.CallsMarked mark)
include hc

theorem unmarked_copy (job : Job) : job.copy.Unmarked mark := by
  rw [copy]
  split
  · exact hc.composes.pure ()
  · exact hc.composes.bind (unmarked_change _) fun _ => hc.composes.tell id

omit hc in
theorem unmarked_load (job : Job) : job.load.Unmarked mark := unmarked_look _

theorem marks_cleanText (kind : Kind) (text : String) (t : Tree) :
    (cleanText c kind text).marks mark t = if kind = .notebook ∧ InJulia text then 1 else 0 := by
  cases kind with
  | script =>
    rw [if_neg fun h => nomatch h.1]
    exact hc.composes.map (hc.composes.formatScript hc.python text) _ t
  | notebook =>
    rw [cleanText]
    cases hparse : parse text with
    | error e =>
      have hnot : ¬ InJulia text := fun ⟨_, hdocument, _⟩ => by cases hparse.symm.trans hdocument
      rw [marks_bind_of_error (outcome_of _ t), if_neg fun h => hnot h.2]
      rfl
    | ok document =>
      rw [marks_bind_of_ok (outcome_of _ t), run_of, marks_bind_of_unmarked,
        marks_cleanDocument hc]
      · simp only [inJulia_iff hparse, true_and]
        exact Nat.zero_add _
      · intro done
        exact hc.composes.map (hc.composes.of _) _

theorem marks_finish (job : Job) (text : String) (t : Tree) :
    (job.finish c text).marks mark t = if job.Asks text then 1 else 0 := by
  rw [finish, marks_bind_of_unmarked, marks_cleanText hc]
  · rfl
  · intro done
    refine hc.composes.bind (unmarked_change _) fun _ => ?_
    exact hc.composes.bind (hc.composes.tell (not_ofProbe_report job _)) fun _ =>
      hc.composes.pure _

/-- For a job the probe is called once if it finds a notebook in Julia, and otherwise never. -/
theorem marks_run (job : Job) (t : Tree) :
    (job.run c).marks mark t = if ∃ text ∈ job.text? t, job.Asks text then 1 else 0 := by
  have hcopy := leaves_copy job t
  rw [run]
  cases hstarted : job.started t with
  | error e =>
    have htext : job.text? t = none := by rw [text?, hstarted]
    rw [hstarted] at hcopy
    rw [marks_bind_of_error (Prod.mk.inj hcopy).2, unmarked_copy hc job t]
    simp [htext]
  | ok started =>
    have htext : job.text? t = (started.readText job.target).toOption := by rw [text?, hstarted]
    rw [hstarted] at hcopy
    obtain ⟨htree, hok⟩ := Prod.mk.inj hcopy
    have hload : (job.load.run started).outcome =
        (started.readText job.target).mapError .io := rfl
    rw [marks_bind_of_ok hok, htree, unmarked_copy hc job t, Nat.zero_add]
    cases hread : started.readText job.target with
    | error e =>
      rw [hread] at htext hload
      rw [marks_bind_of_error hload, unmarked_load job started]
      simp [htext, Except.toOption]
    | ok text =>
      rw [hread] at htext hload
      rw [marks_bind_of_ok hload, unmarked_load job started, Nat.zero_add, marks_finish hc]
      simp [htext, Except.toOption]

end Job
end NotebookTidy
